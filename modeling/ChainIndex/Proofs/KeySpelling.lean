/-
The texts that spell a key. A key may be written in hex of either case, in base64 or,
in its amino encoding, in bech32, with blanks around it. Which of these it is has to be
guessed, and the guess is right because of the lengths: no text of one spelling can be
read in an earlier one as a key of a supported length. So a key has one address however
it is written.
-/
import ChainIndex.Proofs.Bech32
import ChainIndex.Proofs.Spelling

namespace ChainIndex

namespace Text

/-- Blanks on both sides are dropped. -/
theorem trimChars_around {before cs after : List Char} (hb : ∀ c ∈ before, isBlank c = true)
    (ha : ∀ c ∈ after, isBlank c = true) (solid : ∀ c ∈ cs, isBlank c = false) :
    trimChars (before ++ cs ++ after) = cs := by
  rw [trimChars_append_blank ha, trimChars_blank_append hb, trimChars_of_solid solid]

theorem trim_around {before text after : String} (hb : ∀ c ∈ before.toList, isBlank c = true)
    (ha : ∀ c ∈ after.toList, isBlank c = true) (solid : ∀ c ∈ text.toList, isBlank c = false) :
    trim (before ++ text ++ after) = text := by
  rw [trim, String.toList_append, String.toList_append, trimChars_around hb ha solid,
    String.ofList_toList]

end Text

/-! ## Hex and base64 -/

namespace Bytes

theorem toHexChars_solid {digits : List Char}
    (h : ∀ n, n < 16 → Text.isBlank (digits.getD n '0') = false) (bs : Bytes) :
    ∀ c ∈ toHexChars digits bs, Text.isBlank c = false := by
  intro c hc
  obtain ⟨b, -, hc⟩ := List.mem_flatMap.mp hc
  have hb := b.toNat_lt
  simp only [List.mem_cons, List.not_mem_nil, or_false] at hc
  rcases hc with rfl | rfl
  · exact h _ (by omega)
  · exact h _ (by omega)

theorem toHex_solid (bs : Bytes) : ∀ c ∈ bs.toHex.toList, Text.isBlank c = false := by
  rw [toHex, String.toList_ofList]
  exact toHexChars_solid (by decide) bs

theorem toUpperHex_solid (bs : Bytes) : ∀ c ∈ bs.toUpperHex.toList, Text.isBlank c = false := by
  rw [toUpperHex, String.toList_ofList]
  exact toHexChars_solid (by decide) bs

theorem Base64.encode_solid (bs : Bytes) :
    ∀ c ∈ (Base64.encode bs).toList, Text.isBlank c = false := by
  rw [Base64.encode, String.toList_ofList]
  exact Base64.encodeChars_solid bs

end Bytes

namespace AddressBook

/-- What is supported and read as hex is the key. -/
theorem readKey?_of_hex (book : AddressBook) {text : String} {key : Bytes} {hint : String}
    {k : PublicKey} (supported : PublicKey.ofBytes? key hint = some k)
    (hex : Bytes.ofHex? text = some key) : book.readKey? text hint = some k := by
  rw [readKey?, hex, Option.bind_some, supported]
  rfl

/-- A longer text than the hex of a key is left to bech32. -/
theorem readKey?_of_long (book : AddressBook) {text : String} (hint : String)
    (long : 66 < text.toList.length) :
    book.readKey? text hint = keyEndings.findSome? (book.ofBech32? text) := by
  have noHex : (Bytes.ofHex? text).bind (PublicKey.ofBytes? · hint) = none := by
    rw [Option.bind_eq_none_iff]
    intro bs read
    cases key : PublicKey.ofBytes? bs hint with
    | none => rfl
    | some k =>
      have digits := Bytes.length_ofHexChars? read
      have := PublicKey.length_of_ofBytes? key
      omega
  have noBase64 : (Bytes.Base64.decode? text).bind (PublicKey.ofBytes? · hint) = none := by
    rw [Option.bind_eq_none_iff]
    intro bs read
    cases key : PublicKey.ofBytes? bs hint with
    | none => rfl
    | some k =>
      have symbols := Bytes.Base64.length_encodeChars bs
      rw [Bytes.Base64.encodeChars_of_decodeChars? read] at symbols
      have := PublicKey.length_of_ofBytes? key
      omega
  rw [readKey?, noHex, noBase64]
  rfl

end AddressBook

/-! ## Bech32 -/

theorem Bech32.toList_encode (hrp : String) (data : Bytes) : (encode hrp data).toList =
    hrp.toList.map Char.toLower ++ '1' :: (toGroups 0 0 data ++
      checksum (hrp.toList.map Char.toLower) (toGroups 0 0 data)).map symbol :=
  String.toList_ofList

theorem Bech32.length_encode (hrp : String) (data : Bytes) :
    (encode hrp data).toList.length = hrp.toList.length + (8 * data.length + 4) / 5 + 7 := by
  have groups : (toGroups 0 0 data).length = (0 + 8 * data.length + 4) / 5 :=
    length_toGroups (by decide) data
  rw [toList_encode]
  simp only [List.length_append, List.length_cons, List.length_map, length_checksum, groups]
  omega

theorem Bech32.encode_solid {hrp : String} (h : isHrp hrp = true) (data : Bytes) :
    ∀ c ∈ (encode hrp data).toList, Text.isBlank c = false := by
  have visible {c : Char} (range : 33 ≤ c.toNat ∧ c.toNat ≤ 126) : Text.isBlank c = false := by
    simp only [Text.isBlank, Bool.or_eq_false_iff, Bool.and_eq_false_iff, decide_eq_false_iff_not,
      beq_eq_false_iff_ne]
    omega
  have symbols : ∀ g, g < 32 → Text.isBlank (symbol g) = false := by decide
  intro c hc
  rw [toList_encode] at hc
  rcases List.mem_append.mp hc with hc | hc
  · exact visible (lower_hrp h c hc).1
  · rcases List.mem_cons.mp hc with rfl | hc
    · decide
    · obtain ⟨g, hg, rfl⟩ := List.mem_map.mp hc
      rcases List.mem_append.mp hg with hg | hg
      · exact symbols g (toGroups_lt (by decide) (by decide) data g hg)
      · exact symbols g (checksum_lt _ _ g hg)

namespace PublicKey

/-- The amino encoding of a key: five bytes that name the algorithm, then the key. -/
def amino : PublicKey → Bytes
  | secp256k1 key => aminoSecp256k1 ++ key
  | ed25519 key => aminoEd25519 ++ key

variable {key : Bytes} {hint : String} {k : PublicKey}

theorem ofAmino?_amino (supported : ofBytes? key hint = some k) : ofAmino? k.amino = some k := by
  unfold ofBytes? at supported
  split at supported
  · next short =>
    cases supported
    have apart : aminoSecp256k1.isPrefixOf (aminoEd25519 ++ key) = false := rfl
    have named : aminoEd25519.isPrefixOf (aminoEd25519 ++ key) = true := rfl
    have rest : (aminoEd25519 ++ key).drop 5 = key := rfl
    simp only [amino, ofAmino?, apart, named, rest, short.2, if_true, Bool.false_eq_true, if_false]
  · split at supported
    · next long =>
      cases supported
      have named : aminoSecp256k1.isPrefixOf (aminoSecp256k1 ++ key) = true := rfl
      have rest : (aminoSecp256k1 ++ key).drop 5 = key := rfl
      simp only [amino, ofAmino?, named, rest, long, if_true]
    · cases supported

theorem length_amino (supported : ofBytes? key hint = some k) : 37 ≤ k.amino.length := by
  have length := length_of_ofBytes? supported
  have same : k = ed25519 key ∨ k = secp256k1 key := by
    unfold ofBytes? at supported
    split at supported
    · exact .inl (Option.some.inj supported).symm
    · split at supported
      · exact .inr (Option.some.inj supported).symm
      · cases supported
  rcases same with rfl | rfl <;>
    simp only [amino, aminoEd25519, aminoSecp256k1, List.length_append, List.length_cons,
      List.length_nil] <;> omega

end PublicKey

namespace AddressBook

variable {book : AddressBook} {ending : String}

/-- The part before the separator is compared without its case. -/
theorem lowerAscii_lower {hrp : String} (h : Bech32.isHrp hrp = true) :
    Text.lowerAscii (String.ofList (hrp.toList.map Char.toLower)) = Text.lowerAscii hrp := by
  refine String.toList_inj.mp ?_
  rw [Text.lowerAscii, Text.lowerAscii, String.toList_map, String.toList_map, String.toList_ofList,
    List.map_map]
  refine List.map_congr_left fun c hc => ?_
  exact (Bech32.lower_hrp h c.toLower (List.mem_map_of_mem hc)).2.2

theorem ofBech32?_encode (valid : Bech32.isHrp (book.hrp ++ ending) = true) (data : Bytes) :
    book.ofBech32? (Bech32.encode (book.hrp ++ ending) data) ending = PublicKey.ofAmino? data := by
  have same : (Text.lowerAscii (String.ofList ((book.hrp ++ ending).toList.map Char.toLower)) ==
      Text.lowerAscii (book.hrp ++ ending)) = true := beq_iff_eq.mpr (lowerAscii_lower valid)
  rw [ofBech32?, Bech32.decode?_encode valid]
  change (guard _ >>= _ : Option PublicKey) = _
  rw [Bech32.guard_bind same]

/-- Under whatever ending a text is tried, it gives the key of its bytes or none. -/
theorem ofBech32?_eq_some {text hrp : String} {data : Bytes} {k : PublicKey}
    (read : Bech32.decode? text = some (hrp, data)) (h : book.ofBech32? text ending = some k) :
    PublicKey.ofAmino? data = some k := by
  rw [ofBech32?, read] at h
  change (guard _ >>= _ : Option PublicKey) = some k at h
  obtain ⟨_, -, found⟩ := Option.bind_eq_some_iff.mp h
  exact found

/-- The key of a bech32 string is found under its ending. -/
theorem findKey_encode (listed : ending ∈ keyEndings)
    (valid : Bech32.isHrp (book.hrp ++ ending) = true) {data : Bytes} {k : PublicKey}
    (amino : PublicKey.ofAmino? data = some k) :
    keyEndings.findSome? (book.ofBech32? (Bech32.encode (book.hrp ++ ending) data)) = some k := by
  have here : book.ofBech32? (Bech32.encode (book.hrp ++ ending) data) ending =
      PublicKey.ofAmino? data := ofBech32?_encode valid data
  cases found : keyEndings.findSome? (book.ofBech32? (Bech32.encode (book.hrp ++ ending) data)) with
  | none =>
    rw [List.findSome?_eq_none_iff] at found
    rw [found ending listed, amino] at here
    cases here
  | some k' =>
    obtain ⟨other, -, read⟩ := List.exists_of_findSome?_eq_some found
    have same := ofBech32?_eq_some (Bech32.decode?_encode valid data) read
    rw [amino] at same
    exact same.symm

/-! ## Every spelling -/

/-- A text that is read as a supported key has the key's address, with blanks around it
or without. -/
theorem ofKeyText_around (book : AddressBook) {before text after hint : String}
    (blank : ∀ c ∈ before.toList ++ after.toList, Text.isBlank c = true)
    (solid : ∀ c ∈ text.toList, Text.isBlank c = false) {k : PublicKey}
    (read : book.readKey? text hint = some k) :
    book.ofKeyText (before ++ text ++ after) hint = .ok (Bech32.encode book.hrp k.address) := by
  have trimmed : Text.trim (before ++ text ++ after) = text :=
    Text.trim_around (fun c hc => blank c (List.mem_append_left _ hc))
      (fun c hc => blank c (List.mem_append_right _ hc)) solid
  simp only [ofKeyText, trimmed, read, encode_address]

/-- **A key has one address however it is written.** The address of key bytes that are
supported under a hint is also that of their hex in lower or upper case and of their
base64 under the same hint, and that of their amino encoding in bech32 under any hint,
with blanks around the text or without. -/
theorem address_of_every_spelling (book : AddressBook) {key : Bytes} {hint : String}
    (supported : key.length = 33 ∨ key.length = 32 ∧ hint = "ed25519") {before after : String}
    (blank : ∀ c ∈ before.toList ++ after.toList, Text.isBlank c = true) :
    ∃ k address, PublicKey.ofBytes? key hint = some k ∧ book.ofKeyBytes key hint = .ok address ∧
      (∀ text ∈ [key.toHex, key.toUpperHex, Bytes.Base64.encode key],
        book.ofKeyText (before ++ text ++ after) hint = .ok address) ∧
      ∀ ending ∈ keyEndings, Bech32.isHrp (book.hrp ++ ending) = true → ∀ anyHint,
        book.ofKeyText (before ++ Bech32.encode (book.hrp ++ ending) k.amino ++ after) anyHint =
          .ok address := by
  obtain ⟨k, hk⟩ : ∃ k, PublicKey.ofBytes? key hint = some k := by
    unfold PublicKey.ofBytes?
    rcases supported with long | ⟨short, rfl⟩
    · have other : ¬(hint = "ed25519" ∧ key.length = PublicKey.ed25519Length) := by
        rintro ⟨-, short⟩
        rw [long] at short
        cases short
      exact ⟨.secp256k1 key, (if_neg other).trans (if_pos long)⟩
    · exact ⟨.ed25519 key, if_pos ⟨rfl, short⟩⟩
  refine ⟨k, Bech32.encode book.hrp k.address, hk, ?_, ?_, ?_⟩
  · simp only [ofKeyBytes, hk, encode_address]
  · simp only [List.forall_mem_cons]
    refine ⟨?_, ?_, ?_, fun _ h => absurd h List.not_mem_nil⟩
    · exact book.ofKeyText_around blank key.toHex_solid
        (book.readKey?_of_hex hk (Bytes.ofHex?_toHex key))
    · exact book.ofKeyText_around blank key.toUpperHex_solid
        (book.readKey?_of_hex hk (Bytes.ofHex?_toUpperHex key))
    · exact book.ofKeyText_around blank (Bytes.Base64.encode_solid key) (book.readKey?_encode hk)
  · intro ending listed valid anyHint
    refine book.ofKeyText_around blank (Bech32.encode_solid valid _) ?_
    have long : 66 < (Bech32.encode (book.hrp ++ ending) k.amino).toList.length := by
      have := PublicKey.length_amino hk
      rw [Bech32.length_encode]
      omega
    rw [book.readKey?_of_long anyHint long]
    exact findKey_encode listed valid (PublicKey.ofAmino?_amino hk)

def juno : AddressBook := ⟨"juno", by decide⟩

/-- The key of the bytes 0 to 31. -/
def countingKey : Bytes := (List.range 32).map UInt8.ofNat

theorem address_of_every_spelling_countingKey :
    countingKey.length = 32 ∧ ∃ address, juno.ofKeyBytes countingKey "ed25519" = .ok address ∧
      juno.ofKeyText (" " ++ countingKey.toUpperHex ++ "\n") "ed25519" = .ok address ∧
      juno.ofKeyText (" " ++ Bytes.Base64.encode countingKey ++ "\n") "ed25519" = .ok address ∧
      juno.ofKeyText (" " ++ Bech32.encode (juno.hrp ++ "valconspub")
        (PublicKey.ed25519 countingKey).amino ++ "\n") "" = .ok address := by
  have length : countingKey.length = 32 := by decide
  have blank : ∀ c ∈ " ".toList ++ "\n".toList, Text.isBlank c = true :=
    List.all_eq_true.mp (by decide)
  obtain ⟨k, address, read, bytes, texts, legacy⟩ :=
    juno.address_of_every_spelling (.inr ⟨length, rfl⟩) blank
  have same : PublicKey.ofBytes? countingKey "ed25519" = some (.ed25519 countingKey) := by decide
  obtain rfl : PublicKey.ed25519 countingKey = k := Option.some.inj (same.symm.trans read)
  refine ⟨length, address, bytes, ?_, ?_, ?_⟩
  · exact texts _ (List.mem_cons_of_mem _ List.mem_cons_self)
  · exact texts _ (List.mem_cons_of_mem _ (List.mem_cons_of_mem _ List.mem_cons_self))
  · exact legacy "valconspub" (by decide) (by decide) ""

end AddressBook

end ChainIndex
