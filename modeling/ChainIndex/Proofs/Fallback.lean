/-
The two decoders of a transaction agree. The strict one reads the body of a
transaction as a whole; the fallback reads it without its extension options, which it
then looks at apart. A whole body is there exactly if both parts are, so the fallback
accepts whatever the strict decoder accepts and finds the same messages, memo, timeout
height and auth info in it. What a decoder knows of message types shows in nothing
else than in how the transaction was decoded and which options that dropped.
-/
import ChainIndex.Proofs.Outcomes
import ChainIndex.Tx.Decoder

namespace ChainIndex

/-- What a transaction says, however it was decoded. -/
structure DecodedTx.Content where
  messages : List AnyMessage
  memo : String
  timeoutHeight : Nat
  authInfo : AuthInfo
  deriving DecidableEq

def DecodedTx.content (tx : DecodedTx) : Content :=
  ⟨tx.messages, tx.memo, tx.timeoutHeight, tx.authInfo⟩

namespace Wire

/-- A body can be read as a whole exactly if it can be read in two parts. -/
theorem wholeBody?_eq_some {nesting : Nat} {fs : List Field} {b : TxBody} {x : TxExtensions} :
    wholeBody? nesting fs = some (b, x) ↔
      txBody? nesting fs = some b ∧ txExtensions? nesting fs = some x := by
  obtain ⟨messages, memo, timeoutHeight⟩ := b
  obtain ⟨critical, nonCritical⟩ := x
  cases hm : records nesting anyMessage? 1 fs <;> cases ht : text 2 fs <;>
    cases hw : word64 3 fs <;> cases hc : records nesting anyMessage? 1023 fs <;>
    cases hn : records nesting anyMessage? 2047 fs <;>
    simp [wholeBody?, txBody?, txExtensions?, hm, ht, hw, hc, hn, and_assoc]

theorem message?_wholeBody {bs : Bytes} {b : TxBody} {x : TxExtensions} :
    message? wholeBody? bs = some (b, x) ↔
      message? txBody? bs = some b ∧ message? txExtensions? bs = some x := by
  cases h : fields? maxNesting bs with
  | none => simp [message?, h]
  | some fs => simpa [message?, h] using wholeBody?_eq_some

end Wire

namespace Decoder

variable {bs : Bytes}

theorem envelope_eq_ok {raw : RawTx} :
    envelope bs = .ok raw ↔ Wire.message? Wire.rawTx? bs = some raw := by
  unfold envelope
  split <;> simp_all

theorem body_eq_ok {raw : RawTx} {b : TxBody} :
    body raw = .ok b ↔ Wire.message? Wire.txBody? raw.body = some b := by
  unfold body
  split <;> simp_all

theorem wholeBody_eq_ok {raw : RawTx} {b : TxBody} {x : TxExtensions} :
    wholeBody raw = .ok (b, x) ↔ body raw = .ok b ∧ extensions raw = .ok x := by
  have parts : Wire.message? Wire.wholeBody? raw.body = some (b, x) ↔ _ := Wire.message?_wholeBody
  unfold wholeBody body extensions
  split <;> split <;> split <;> simp_all

/-- The fallback needs the envelope and the body, and nothing else. -/
theorem decodeFallback_eq_ok {tx : DecodedTx} :
    decodeFallback bs = .ok tx ↔ ∃ raw b, envelope bs = .ok raw ∧ body raw = .ok b ∧
      tx = {
        messages := b.messages, memo := b.memo, timeoutHeight := b.timeoutHeight,
        authInfo := (authInfo raw.authInfo).toOption.getD .empty,
        droppedExtensions := extensionTypes raw, usedFallback := true } := by
  constructor
  · intro h
    obtain ⟨raw, hraw, h⟩ := bind_eq_ok h
    obtain ⟨b, hb, h⟩ := bind_eq_ok h
    cases h
    exact ⟨raw, b, hraw, hb, rfl⟩
  · rintro ⟨raw, b, hraw, hb, rfl⟩
    simp only [decodeFallback, hraw, hb, bind, Except.bind]
    rfl

variable {d : Decoder}

/-- What the strict decoder accepts: a whole body without critical options, with
registered messages only, and an auth info that can be read. -/
theorem decodeStrict_eq_ok {tx : DecodedTx} :
    d.decodeStrict bs = .ok tx ↔ ∃ raw b x auth, envelope bs = .ok raw ∧ body raw = .ok b ∧
      extensions raw = .ok x ∧ x.critical = [] ∧
      (∀ m ∈ b.messages, d.isRegistered m.typeUrl = true) ∧ authInfo raw.authInfo = .ok auth ∧
      tx = {
        messages := b.messages, memo := b.memo, timeoutHeight := b.timeoutHeight,
        authInfo := auth, droppedExtensions := [], usedFallback := false } := by
  constructor
  · intro h
    obtain ⟨raw, hraw, h⟩ := bind_eq_ok h
    obtain ⟨⟨b, x⟩, hwhole, h⟩ := bind_eq_ok h
    obtain ⟨hb, hx⟩ := wholeBody_eq_ok.mp hwhole
    dsimp only at h
    split at h
    · cases h
    · next noCritical =>
      split at h
      · cases h
      · next known =>
        obtain ⟨auth, hauth, h⟩ := bind_eq_ok h
        cases h
        have registered : ∀ m ∈ b.messages, d.isRegistered m.typeUrl = true := by
          simpa using List.find?_eq_none.mp known
        exact ⟨raw, b, x, auth, hraw, hb, hx, noCritical, registered, hauth, rfl⟩
  · rintro ⟨raw, b, x, auth, hraw, hb, hx, noCritical, registered, hauth, rfl⟩
    have known : b.messages.find? (fun m => !d.isRegistered m.typeUrl) = none :=
      List.find?_eq_none.mpr (by simpa using registered)
    simp only [decodeStrict, hraw, wholeBody_eq_ok.mpr ⟨hb, hx⟩, noCritical, known, hauth, bind,
      Except.bind]
    rfl

/-- The fallback finds the same in what the strict decoder accepts. -/
theorem fallback_of_strict {tx : DecodedTx} (h : d.decodeStrict bs = .ok tx) :
    ∃ tx', decodeFallback bs = .ok tx' ∧ tx'.content = tx.content := by
  obtain ⟨raw, b, x, auth, hraw, hb, -, -, -, hauth, rfl⟩ := decodeStrict_eq_ok.mp h
  refine ⟨_, decodeFallback_eq_ok.mpr ⟨raw, b, hraw, hb, rfl⟩, ?_⟩
  simp [DecodedTx.content, hauth, Except.toOption]

/-- Both ways of decoding find the same, or fail for the same reason. -/
theorem content_decode (d : Decoder) (bs : Bytes) :
    (d.decode bs).map DecodedTx.content = (decodeFallback bs).map DecodedTx.content := by
  unfold decode
  split
  · next tx h =>
    obtain ⟨tx', found, same⟩ := fallback_of_strict h
    simp [found, same, Except.map]
  · rfl

/-- **The fallback extends the strict decoder.** Bytes can be decoded exactly if the
fallback can decode them, which it can exactly if they are an envelope around a body;
what is found in them is what the fallback finds, and registering more message types
changes nothing of it. -/
theorem decode_extends_strict (d : Decoder) (bs : Bytes) (more : List String) :
    ((∃ tx, d.decode bs = .ok tx) ↔ ∃ tx, decodeFallback bs = .ok tx) ∧
      ((∃ tx, decodeFallback bs = .ok tx) ↔ ∃ raw b, Wire.message? Wire.rawTx? bs = some raw ∧
        Wire.message? Wire.txBody? raw.body = some b) ∧
      (d.decode bs).map DecodedTx.content = (decodeFallback bs).map DecodedTx.content ∧
      ((more.foldl register d).decode bs).map DecodedTx.content =
        (d.decode bs).map DecodedTx.content := by
  have same := content_decode d bs
  refine ⟨?_, ?_, same, (content_decode (more.foldl register d) bs).trans same.symm⟩
  · cases hd : d.decode bs <;> cases hf : decodeFallback bs <;> simp_all [Except.map]
  · simp only [decodeFallback_eq_ok, envelope_eq_ok, body_eq_ok]
    constructor
    · rintro ⟨tx, raw, b, hraw, hb, -⟩
      exact ⟨raw, b, hraw, hb⟩
    · rintro ⟨raw, b, hraw, hb⟩
      exact ⟨_, raw, b, hraw, hb, rfl⟩

end Decoder

end ChainIndex
