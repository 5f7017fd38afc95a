/-
What the auth info of a transaction says in JSON: its signers, with the texts of their keys,
and the fee that it offers. Members that are missing or of another type count as empty. The
relations here say this member by member, apart from how it is read; `jsonAuthInfo_eq_ok_iff`
is that an auth info is read exactly as what it says.
-/
import ChainIndex.Proofs.CoinLists
import ChainIndex.Proofs.Outcomes
import ChainIndex.Tx.Normal

namespace ChainIndex

/-! ## Members -/

namespace Json

/-- The member of a key, or null where there is none. -/
def MemberAt (j : Json) (key : String) (member : Json) : Prop :=
  j.get? key = some member ∨ j.get? key = none ∧ member = .null

/-- The text under a key, empty where there is none. -/
inductive TextAt (j : Json) (key : String) : String → Prop
  | text {s : String} : j.get? key = some (.string s) → TextAt j key s
  | none : (∀ s, j.get? key ≠ some (.string s)) → TextAt j key ""

/-- The items of the list under a key, none where there is no list. -/
inductive ItemsAt (j : Json) (key : String) : List Json → Prop
  | list {items : List Json} : j.get? key = some (.array items) → ItemsAt j key items
  | none : (∀ items, j.get? key ≠ some (.array items)) → ItemsAt j key []

/-- The 64-bit number under a key, which may be a text, and zero where there is none. -/
inductive WordAt (j : Json) (key : String) : Nat → Prop
  | text {s : String} {n : Nat} : j.get? key = some (.string s) → Text.word64? s = some n →
    WordAt j key n
  | number {n : Nat} : j.get? key = some (.number (.integer n)) → WordAt j key n
  | none : (∀ s, j.get? key = some (.string s) → Text.word64? s = .none) →
    (∀ n : Nat, j.get? key ≠ some (.number (.integer n))) → WordAt j key 0

variable {j member : Json} {key : String}

theorem memberAt_iff : j.MemberAt key member ↔ (j.get? key).getD .null = member := by
  cases found : j.get? key with
  | none => simp [MemberAt, found, eq_comm]
  | some m => simp [MemberAt, found]

theorem textAt_iff {s : String} : j.TextAt key s ↔ j.textAt key = s := by
  unfold textAt
  constructor
  · rintro (found | none)
    · rw [found]
    · split
      · next s found => exact absurd found (none s)
      · rfl
  · rintro rfl
    split
    · next s found => exact .text found
    · next none => exact .none none

theorem itemsAt_iff {items : List Json} : j.ItemsAt key items ↔ j.itemsAt key = items := by
  unfold itemsAt
  constructor
  · rintro (found | none)
    · rw [found]
    · split
      · next items found => exact absurd found (none items)
      · rfl
  · rintro rfl
    split
    · next items found => exact .list found
    · next none => exact .none none

theorem wordAt_iff {n : Nat} : j.WordAt key n ↔ Decoder.jsonWord64 (j.get? key) = n := by
  constructor
  · rintro (⟨found, fits⟩ | found | ⟨unread, other⟩)
    · rw [found, Decoder.jsonWord64, fits, Option.getD_some]
    · rw [found]
      rfl
    · unfold Decoder.jsonWord64
      split
      · next s found => rw [unread s found, Option.getD_none]
      · next i found =>
        refine Int.toNat_of_nonpos (Int.not_lt.mp fun positive => other i.toNat ?_)
        rw [found, Int.toNat_of_nonneg (Int.le_of_lt positive)]
      · rfl
  · rintro rfl
    unfold Decoder.jsonWord64
    split
    · next s found =>
      cases read : Text.word64? s with
      | some n => exact .text found read
      | none =>
        refine .none (fun t found' => ?_) fun n found' => ?_
        · cases found.symm.trans found'
          exact read
        · cases found.symm.trans found'
    · next i found =>
      -- What is below zero counts as if there were no number.
      rcases Int.lt_or_le i 0 with negative | positive
      · rw [Int.toNat_of_nonpos (Int.le_of_lt negative)]
        refine .none (fun s found' => ?_) fun n found' => ?_
        · cases found.symm.trans found'
        · cases found.symm.trans found'
          exact absurd negative (Int.not_lt.mpr (Int.natCast_nonneg n))
      · refine .number (found.trans ?_)
        rw [Int.toNat_of_nonneg positive]
    · next noText noNumber =>
      exact .none (fun s found => absurd found (noText s)) fun n => noNumber n

/-! ## Keys -/

/-- A key with its type, both as texts. -/
def IsKey (j : Json) (text : String × String) : Prop :=
  j.get? "@type" = some (.string text.1) ∧ j.get? "key" = some (.string text.2)

/-- The keys among some values, in their order. -/
inductive KeysAmong : List Json → List (String × String) → Prop
  | nil : KeysAmong [] []
  | key {item items text texts} : IsKey item text → KeysAmong items texts →
    KeysAmong (item :: items) (text :: texts)
  | other {item items texts} : (∀ text, ¬IsKey item text) → KeysAmong items texts →
    KeysAmong (item :: items) texts

/-- The keys of a public key: those that a multisig lists, or else it is a key itself. -/
def SaysKeys (publicKey : Json) (texts : List (String × String)) : Prop :=
  ∃ items, KeysAmong items texts ∧
    (publicKey.TextAt "@type" multisigTypeUrl ∧ publicKey.ItemsAt "public_keys" items ∨
      ¬publicKey.TextAt "@type" multisigTypeUrl ∧ items = [publicKey])

theorem isKey_iff {text : String × String} : j.IsKey text ↔ Decoder.jsonKey? j = some text := by
  unfold IsKey Decoder.jsonKey?
  constructor
  · rintro ⟨type, key⟩
    rw [type, key]
  · intro read
    split at read
    · next type key =>
      cases read
      exact ⟨type, key⟩
    · cases read

theorem keysAmong_iff {items : List Json} {texts : List (String × String)} :
    KeysAmong items texts ↔ items.filterMap Decoder.jsonKey? = texts := by
  constructor
  · intro h
    induction h with
    | nil => rfl
    | key here _ ih => rw [List.filterMap_cons_some (isKey_iff.mp here), ih]
    | @other item items texts other _ ih =>
      have none : Decoder.jsonKey? item = .none :=
        Option.eq_none_iff_forall_not_mem.mpr fun text read => other text (isKey_iff.mpr read)
      rw [List.filterMap_cons_none none, ih]
  · rintro rfl
    induction items with
    | nil => exact .nil
    | cons item items ih =>
      cases read : Decoder.jsonKey? item with
      | none =>
        rw [List.filterMap_cons_none read]
        refine .other (fun text here => ?_) ih
        rw [isKey_iff, read] at here
        cases here
      | some text =>
        rw [List.filterMap_cons_some read]
        exact .key (isKey_iff.mpr read) ih

theorem saysKeys_iff {texts : List (String × String)} :
    j.SaysKeys texts ↔ Decoder.jsonKeys j = texts := by
  unfold SaysKeys Decoder.jsonKeys
  simp only [keysAmong_iff, textAt_iff, itemsAt_iff]
  split
  · next several => simp [several]
  · next one =>
    have alone : [j].filterMap Decoder.jsonKey? = (Decoder.jsonKey? j).toList := by
      cases read : Decoder.jsonKey? j <;> simp [read]
    simp [one, alone]

/-! ## Fees -/

/-- A coin: its amount may have blanks around it. -/
structure SaysCoin (j : Json) (coin : Coin) : Prop where
  amount : ∃ text, j.TextAt "amount" text ∧
    Decimal.ofChars? (Text.trimChars text.toList) = .ok coin.amount
  denom : j.TextAt "denom" coin.denom
  valid : Coin.isDenom coin.denom = true

structure SaysFee (j : Json) (fee : FeeOffer) : Prop where
  coins : ∃ items, j.ItemsAt "amount" items ∧ List.Forall₂ SaysCoin items fee.amount
  gasLimit : j.WordAt "gas_limit" fee.gasLimit
  payer : j.TextAt "payer" fee.payer
  granter : j.TextAt "granter" fee.granter

end Json

namespace Decoder

theorem jsonCoin_eq_ok_iff {j : Json} {coin : Coin} : jsonCoin j = .ok coin ↔ j.SaysCoin coin := by
  rw [jsonCoin, mapError_eq_ok_iff, Coin.ofParts_eq_ok_iff]
  constructor
  · rintro ⟨amount, valid, denom⟩
    exact ⟨⟨_, Json.textAt_iff.mpr rfl, amount⟩, Json.textAt_iff.mpr denom.symm, denom ▸ valid⟩
  · rintro ⟨⟨text, shown, amount⟩, denom, valid⟩
    rw [Json.textAt_iff] at shown denom
    exact ⟨shown ▸ amount, denom ▸ valid, denom.symm⟩

theorem jsonFee_eq_ok_iff {j : Json} {fee : FeeOffer} : jsonFee j = .ok fee ↔ j.SaysFee fee := by
  have coins {items : List Json} {amount : List Coin} :
      items.mapM jsonCoin = .ok amount ↔ List.Forall₂ Json.SaysCoin items amount := by
    simp only [mapM_eq_ok_iff, jsonCoin_eq_ok_iff]
  rw [jsonFee, bind_eq_ok_iff]
  constructor
  · rintro ⟨amount, read, made⟩
    cases made
    exact ⟨⟨_, Json.itemsAt_iff.mpr rfl, coins.mp read⟩, Json.wordAt_iff.mpr rfl,
      Json.textAt_iff.mpr rfl, Json.textAt_iff.mpr rfl⟩
  · rintro ⟨⟨items, listed, shown⟩, gasLimit, payer, granter⟩
    rw [Json.itemsAt_iff] at listed
    rw [Json.wordAt_iff] at gasLimit
    rw [Json.textAt_iff] at payer granter
    refine ⟨fee.amount, listed ▸ coins.mpr shown, ?_⟩
    rw [gasLimit, payer, granter]
    rfl

/-! ## Signers -/

variable (d : Decoder)

/-- A key in text is these bytes, if it is in base64, and has this address. -/
structure ReadsKey (text : String × String) (key : SignerKey × String) : Prop where
  typeUrl : key.1.typeUrl = text.1
  bytes : Bytes.Base64.decode? text.2 = some key.1.key ∨
    Bytes.Base64.decode? text.2 = none ∧ key.1.key = []
  address : d.book.ofKeyText text.2 key.1.hint = .ok key.2

/-- A signer in JSON is this one, and its keys have these addresses. -/
structure ReadsSigner (info : Json) (signer : SignerInfo × List String) : Prop where
  keys : ∃ publicKey texts keys, info.MemberAt "public_key" publicKey ∧
    publicKey.TextAt "@type" signer.1.keyTypeUrl ∧ publicKey.SaysKeys texts ∧
    List.Forall₂ d.ReadsKey texts keys ∧
    keys.map (·.1) = signer.1.keys ∧ keys.map (·.2) = signer.2
  sequence : info.WordAt "sequence" signer.1.sequence

/-- An auth info in JSON is this one, and the keys of its signers have these addresses. -/
structure ReadsAuthInfo (j : Json) (auth : AuthInfo) (addresses : List String) : Prop where
  signers : ∃ infos signers, j.ItemsAt "signer_infos" infos ∧
    List.Forall₂ d.ReadsSigner infos signers ∧
    signers.map (·.1) = auth.signers ∧ signers.flatMap (·.2) = addresses
  fee : ∃ fee, j.MemberAt "fee" fee ∧ fee.SaysFee auth.fee

theorem jsonSignerKey_eq_ok_iff {text : String × String} {key : SignerKey × String} :
    d.jsonSignerKey text = .ok key ↔ d.ReadsKey text key := by
  rw [jsonSignerKey, bind_eq_ok_iff]
  constructor
  · rintro ⟨address, resolved, made⟩
    cases made
    refine ⟨rfl, ?_, mapError_eq_ok resolved⟩
    cases Bytes.Base64.decode? text.2 with
    | none => exact .inr ⟨rfl, rfl⟩
    | some bytes => exact .inl rfl
  · rintro ⟨typeUrl, bytes, address⟩
    have same : (⟨text.1, (Bytes.Base64.decode? text.2).getD []⟩ : SignerKey) = key.1 := by
      rcases bytes with bytes | ⟨bytes, none⟩
      · rw [bytes, ← typeUrl, Option.getD_some]
      · rw [bytes, ← typeUrl, Option.getD_none, ← none]
    refine ⟨key.2, ?_, ?_⟩
    · rw [same]
      exact mapError_eq_ok_iff.mpr address
    · rw [same]
      rfl

theorem jsonSigner_eq_ok_iff {info : Json} {signer : SignerInfo × List String} :
    d.jsonSigner info = .ok signer ↔ d.ReadsSigner info signer := by
  have each {texts : List (String × String)} {keys : List (SignerKey × String)} :
      texts.mapM d.jsonSignerKey = .ok keys ↔ List.Forall₂ d.ReadsKey texts keys := by
    simp only [mapM_eq_ok_iff, jsonSignerKey_eq_ok_iff]
  rw [jsonSigner, bind_eq_ok_iff]
  constructor
  · rintro ⟨keys, read, made⟩
    cases made
    exact ⟨⟨_, _, keys, Json.memberAt_iff.mpr rfl, Json.textAt_iff.mpr rfl,
      Json.saysKeys_iff.mpr rfl, each.mp read, rfl, rfl⟩, Json.wordAt_iff.mpr rfl⟩
  · rintro ⟨⟨publicKey, texts, keys, member, typeUrl, shown, read, bytes, addresses⟩, sequence⟩
    rw [Json.memberAt_iff] at member
    rw [Json.textAt_iff] at typeUrl
    rw [Json.saysKeys_iff] at shown
    rw [Json.wordAt_iff] at sequence
    refine ⟨keys, ?_, ?_⟩
    · rw [member, shown]
      exact each.mpr read
    · rw [member, typeUrl, sequence, bytes, addresses]
      rfl

/-- An auth info in JSON is read as what it says. -/
theorem jsonAuthInfo_eq_ok_iff {j : Json} {auth : AuthInfo} {addresses : List String} :
    d.jsonAuthInfo j = .ok (auth, addresses) ↔ d.ReadsAuthInfo j auth addresses := by
  have each {infos : List Json} {signers : List (SignerInfo × List String)} :
      infos.mapM d.jsonSigner = .ok signers ↔ List.Forall₂ d.ReadsSigner infos signers := by
    simp only [mapM_eq_ok_iff, jsonSigner_eq_ok_iff]
  simp only [jsonAuthInfo, bind_eq_ok_iff, jsonFee_eq_ok_iff]
  constructor
  · rintro ⟨signers, read, fee, shown, made⟩
    cases made
    exact ⟨⟨_, signers, Json.itemsAt_iff.mpr rfl, each.mp read, rfl, rfl⟩,
      ⟨_, Json.memberAt_iff.mpr rfl, shown⟩⟩
  · rintro ⟨⟨infos, signers, listed, read, same, rfl⟩, fee, member, shown⟩
    rw [Json.itemsAt_iff] at listed
    rw [Json.memberAt_iff] at member
    refine ⟨signers, listed ▸ each.mpr read, auth.fee, member ▸ shown, ?_⟩
    rw [same]
    rfl

end Decoder

end ChainIndex
