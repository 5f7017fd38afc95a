/-
Decoding undoes encoding. A draft is a transaction as its sender puts it together; its
encoding is the canonical one: fields in the order of their numbers, defaults left out,
nested messages in front of their length. From the encoding both decoders read back
what the draft says, with the keys of a multisig unpacked in their order. The strict
decoder accepts it exactly if the draft has no critical extension option and registered
messages only; otherwise the fallback reports all of the draft's options.
-/
import ChainIndex.Proofs.Fallback
import ChainIndex.Proofs.WireRoundTrip

namespace ChainIndex

/-! ## Drafts -/

/-- What signs for a signer: nothing, a single key of any type but the multisig's, or
several keys of which a number must sign. -/
inductive KeyDraft where
  | none
  | single (key : SignerKey) (other : key.typeUrl ≠ multisigTypeUrl)
  | several (threshold : UInt32) (keys : List SignerKey)

structure SignerDraft where
  key : KeyDraft
  sequence : UInt64

/-- Two texts that spell a coin. -/
structure CoinDraft where
  text : Wire.CoinText
  coin : Coin
  spelt : Coin.ofParts text.amount text.denom = .ok coin

structure FeeDraft where
  amount : List CoinDraft
  gasLimit : UInt64
  payer : String
  granter : String

/-- A transaction as its sender puts it together. -/
structure TxDraft where
  messages : List AnyMessage
  memo : String
  timeoutHeight : UInt64
  critical : List AnyMessage
  nonCritical : List AnyMessage
  signers : List SignerDraft
  fee : Option FeeDraft
  signatures : List Bytes

/-! What the index keeps of a draft -/

namespace KeyDraft

def typeUrl : KeyDraft → String
  | none => ""
  | single key _ => key.typeUrl
  | several _ _ => multisigTypeUrl

def keys : KeyDraft → List SignerKey
  | none => []
  | single key _ => [key]
  | several _ keys => keys

end KeyDraft

def SignerDraft.info (s : SignerDraft) : SignerInfo :=
  ⟨s.key.typeUrl, s.key.keys, s.sequence.toNat⟩

def FeeDraft.offer (f : FeeDraft) : FeeOffer :=
  ⟨f.amount.map (·.coin), f.gasLimit.toNat, f.payer, f.granter⟩

def TxDraft.authInfo (tx : TxDraft) : AuthInfo :=
  ⟨tx.signers.map (·.info), (tx.fee.map (·.offer)).getD .empty⟩

def TxDraft.content (tx : TxDraft) : DecodedTx.Content :=
  ⟨tx.messages, tx.memo, tx.timeoutHeight.toNat, tx.authInfo⟩

def TxDraft.optionTypes (tx : TxDraft) : List String :=
  (tx.critical ++ tx.nonCritical).map (·.typeUrl)

/-! ## Encoding -/

open Wire

def AnyMessage.fields (m : AnyMessage) : List Field :=
  ofText 1 m.typeUrl ++ ofBytes 2 m.value

/-- A key in its wrapper. -/
def SignerKey.wrapped (k : SignerKey) : AnyMessage :=
  ⟨k.typeUrl, write (ofBytes 1 k.key)⟩

namespace KeyDraft

def severalFields (threshold : UInt32) (keys : List SignerKey) : List Field :=
  ofWord 1 threshold.toUInt64.toNat ++ ofRecords 2 AnyMessage.fields (keys.map (·.wrapped))

/-- What stands in the place of a signer's key. -/
def wrapped? : KeyDraft → Option AnyMessage
  | none => .none
  | single key _ => some key.wrapped
  | several threshold keys => some ⟨multisigTypeUrl, write (severalFields threshold keys)⟩

end KeyDraft

namespace SignerDraft

def fields (s : SignerDraft) : List Field :=
  ofRecords 1 AnyMessage.fields s.key.wrapped?.toList ++ ofWord 3 s.sequence.toNat

def record (s : SignerDraft) : SignerRecord :=
  ⟨s.key.wrapped?, s.sequence.toNat⟩

end SignerDraft

def Wire.CoinText.fields (c : CoinText) : List Field :=
  ofText 1 c.denom ++ ofText 2 c.amount

namespace FeeDraft

def fields (f : FeeDraft) : List Field :=
  ofRecords 1 CoinText.fields (f.amount.map (·.text)) ++ ofWord 2 f.gasLimit.toNat ++
    ofText 3 f.payer ++ ofText 4 f.granter

def record (f : FeeDraft) : FeeRecord :=
  ⟨f.amount.map (·.text), f.gasLimit.toNat, f.payer, f.granter⟩

end FeeDraft

namespace TxDraft

def bodyFields (tx : TxDraft) : List Field :=
  ofRecords 1 AnyMessage.fields tx.messages ++ ofText 2 tx.memo ++
    ofWord 3 tx.timeoutHeight.toNat ++ ofRecords 1023 AnyMessage.fields tx.critical ++
    ofRecords 2047 AnyMessage.fields tx.nonCritical

def authFields (tx : TxDraft) : List Field :=
  ofRecords 1 SignerDraft.fields tx.signers ++ ofRecords 2 FeeDraft.fields tx.fee.toList

def rawFields (tx : TxDraft) : List Field :=
  ofBytes 1 (write tx.bodyFields) ++ ofBytes 2 (write tx.authFields) ++
    ofByteStrings 3 tx.signatures

/-- The canonical encoding of a transaction. -/
def encode (tx : TxDraft) : Bytes := write tx.rawFields

end TxDraft

/-! ## Records -/

section

variable {n : Nat}

theorem spells_any (m : AnyMessage) : Spells anyMessage? n m.fields m where
  writable := by
    simp [AnyMessage.fields, writable_ofText, writable_ofBytes]
  reads _ := by
    have typeUrl : text 1 m.fields = some m.typeUrl :=
      text_of_values (by simp [AnyMessage.fields])
    have value : byteString 2 m.fields = some m.value :=
      byteString_of_values (by simp [AnyMessage.fields])
    simp [anyMessage?, typeUrl, value]

theorem spells_key (k : SignerKey) : Spells publicKey? n (ofBytes 1 k.key) k.key where
  writable := writable_ofBytes (by decide) (by decide) _
  reads _ := byteString_of_values (by simp)

theorem spells_coin (c : CoinText) : Spells coinText? n c.fields c where
  writable := by
    simp [CoinText.fields, writable_ofText]
  reads _ := by
    have denom : text 1 c.fields = some c.denom :=
      text_of_values (by simp [CoinText.fields])
    have amount : text 2 c.fields = some c.amount :=
      text_of_values (by simp [CoinText.fields])
    simp [coinText?, denom, amount]

theorem spells_several (threshold : UInt32) (keys : List SignerKey) :
    Spells multisig? (n + 1) (KeyDraft.severalFields threshold keys)
      (keys.map (·.wrapped)) where
  writable := writable_append.mpr ⟨writable_ofWord (by decide) (by decide) threshold.toUInt64,
    writable_ofRecords (by decide) (by decide) _ _⟩
  reads small := by
    have count : word64 1 (KeyDraft.severalFields threshold keys) =
        some threshold.toUInt64.toNat :=
      word64_of_values (by simp [KeyDraft.severalFields])
    have parts : records (n + 1) anyMessage? 2 (KeyDraft.severalFields threshold keys) =
        some ((keys.map (·.wrapped)).map id) :=
      records_of_values (fun m _ => spells_any m) small
        (by simp [KeyDraft.severalFields])
    simp [multisig?, count, parts]

theorem spells_signer (s : SignerDraft) : Spells signerRecord? (n + 1) s.fields s.record where
  writable := by
    simp [SignerDraft.fields, writable_ofWord, writable_ofRecords]
  reads small := by
    have key : record? (n + 1) anyMessage? 1 s.fields = some (s.key.wrapped?.map id) :=
      record?_of_values (fun m _ => spells_any m) small (by simp [SignerDraft.fields])
    have sequence : word64 3 s.fields = some s.sequence.toNat :=
      word64_of_values (by simp [SignerDraft.fields])
    simp [signerRecord?, key, sequence, SignerDraft.record]

theorem spells_fee (f : FeeDraft) : Spells feeRecord? (n + 1) f.fields f.record where
  writable := by
    simp [FeeDraft.fields, writable_ofWord, writable_ofText, writable_ofRecords]
  reads small := by
    have amount : records (n + 1) coinText? 1 f.fields = some ((f.amount.map (·.text)).map id) :=
      records_of_values (fun c _ => spells_coin c) small (by simp [FeeDraft.fields])
    have gasLimit : word64 2 f.fields = some f.gasLimit.toNat :=
      word64_of_values (by simp [FeeDraft.fields])
    have payer : text 3 f.fields = some f.payer :=
      text_of_values (by simp [FeeDraft.fields])
    have granter : text 4 f.fields = some f.granter :=
      text_of_values (by simp [FeeDraft.fields])
    simp [feeRecord?, amount, gasLimit, payer, granter, FeeDraft.record]

theorem spells_auth (tx : TxDraft) : Spells authRecord? (n + 2) tx.authFields
    ⟨tx.signers.map (·.record), tx.fee.map (·.record)⟩ where
  writable := by
    simp [TxDraft.authFields, writable_ofRecords]
  reads small := by
    have signers : records (n + 2) signerRecord? 1 tx.authFields =
        some (tx.signers.map (·.record)) :=
      records_of_values (fun s _ => spells_signer s) small
        (by simp [TxDraft.authFields])
    have fee : record? (n + 2) feeRecord? 2 tx.authFields = some (tx.fee.map (·.record)) :=
      record?_of_values (fun f _ => spells_fee f) small (by simp [TxDraft.authFields])
    simp [authRecord?, signers, fee]

theorem spells_body (tx : TxDraft) : Spells wholeBody? (n + 1) tx.bodyFields
    (⟨tx.messages, tx.memo, tx.timeoutHeight.toNat⟩, ⟨tx.critical, tx.nonCritical⟩) where
  writable := by
    simp [TxDraft.bodyFields, writable_ofWord, writable_ofText, writable_ofRecords]
  reads small := by
    have messages : records (n + 1) anyMessage? 1 tx.bodyFields = some (tx.messages.map id) :=
      records_of_values (fun m _ => spells_any m) small (by simp [TxDraft.bodyFields])
    have memo : text 2 tx.bodyFields = some tx.memo :=
      text_of_values (by simp [TxDraft.bodyFields])
    have timeoutHeight : word64 3 tx.bodyFields = some tx.timeoutHeight.toNat :=
      word64_of_values (by simp [TxDraft.bodyFields])
    have critical : records (n + 1) anyMessage? 1023 tx.bodyFields = some (tx.critical.map id) :=
      records_of_values (fun m _ => spells_any m) small
        (by simp [TxDraft.bodyFields])
    have nonCritical : records (n + 1) anyMessage? 2047 tx.bodyFields =
        some (tx.nonCritical.map id) :=
      records_of_values (fun m _ => spells_any m) small
        (by simp [TxDraft.bodyFields])
    simp [wholeBody?, messages, memo, timeoutHeight, critical, nonCritical]

theorem spells_raw (tx : TxDraft) : Spells rawTx? n tx.rawFields
    ⟨write tx.bodyFields, write tx.authFields, tx.signatures⟩ where
  writable := by
    simp [TxDraft.rawFields, writable_ofBytes, writable_ofByteStrings]
  reads _ := by
    have body : byteString 1 tx.rawFields = some (write tx.bodyFields) :=
      byteString_of_values (by simp [TxDraft.rawFields])
    have auth : byteString 2 tx.rawFields = some (write tx.authFields) :=
      byteString_of_values (by simp [TxDraft.rawFields])
    have signatures : repeated Value.bytes? 3 tx.rawFields = some tx.signatures :=
      byteStrings_of_values (by simp [TxDraft.rawFields])
    simp [rawTx?, body, auth, signatures]

end

/-! ## Sizes -/

theorem length_le_ofBytes (k : Nat) (content : Bytes) :
    content.length ≤ (write (ofBytes k content)).length := by
  unfold ofBytes
  split
  · next empty => simp [List.isEmpty_iff.mp empty]
  · exact length_le_of_mem List.mem_cons_self

theorem length_le_ofRecords {α : Type} (k : Nat) (fields : α → List Field) {xs : List α} {x : α}
    (hx : x ∈ xs) : (write (fields x)).length ≤ (write (ofRecords k fields xs)).length :=
  length_le_of_mem (List.mem_map_of_mem hx : ofRecord k (fields x) ∈ ofRecords k fields xs)

theorem length_value_le (m : AnyMessage) : m.value.length ≤ (write m.fields).length := by
  have := length_le_ofBytes 2 m.value
  simp only [AnyMessage.fields, write_append, List.length_append]
  omega

theorem SignerDraft.length_wrapped_le (s : SignerDraft) {m : AnyMessage}
    (there : s.key.wrapped? = some m) : (write m.fields).length ≤ (write s.fields).length := by
  have part := length_le_ofRecords 1 AnyMessage.fields (List.mem_singleton_self m)
  simp only [SignerDraft.fields, there, Option.toList, write_append, List.length_append]
  omega

namespace TxDraft

theorem length_bodyFields_le (tx : TxDraft) :
    (write tx.bodyFields).length ≤ tx.encode.length := by
  have := length_le_ofBytes 1 (write tx.bodyFields)
  simp only [encode, rawFields, write_append, List.length_append]
  omega

theorem length_authFields_le (tx : TxDraft) :
    (write tx.authFields).length ≤ tx.encode.length := by
  have := length_le_ofBytes 2 (write tx.authFields)
  simp only [encode, rawFields, write_append, List.length_append]
  omega

end TxDraft

/-! ## Decoding -/

namespace Decoder

theorem signerKey_wrapped {k : SignerKey} (small : (write k.wrapped.fields).length < maxLength) :
    signerKey k.wrapped = .ok k := by
  have value : (write (ofBytes 1 k.key)).length < maxLength :=
    Nat.lt_of_le_of_lt (length_value_le k.wrapped) small
  have read : message? publicKey? k.wrapped.value = some k.key := (spells_key k).message value
  simp only [signerKey, read, orAuthError, bind, Except.bind]
  rfl

/-- The keys of a multisig are read in their order. -/
theorem mapM_signerKey {threshold : UInt32} {keys : List SignerKey}
    (small : (write (KeyDraft.severalFields threshold keys)).length < maxLength) :
    (keys.map (·.wrapped)).mapM signerKey = pure keys := by
  have read : (keys.map (·.wrapped)).mapM signerKey = pure (keys.map id) := by
    refine mapM_map_eq_pure fun k hk => signerKey_wrapped ?_
    have part := length_le_ofRecords 2 AnyMessage.fields
      (List.mem_map_of_mem (f := fun k => k.wrapped) hk)
    simp only [KeyDraft.severalFields, write_append, List.length_append] at small
    omega
  rwa [List.map_id] at read

theorem signerInfo_record {s : SignerDraft} (small : (write s.fields).length < maxLength) :
    signerInfo s.record = .ok s.info := by
  -- What stands in the place of the key is nested in the signer.
  have wrapper {m : AnyMessage} (there : s.key.wrapped? = some m) :
      (write m.fields).length < maxLength :=
    Nat.lt_of_le_of_lt (s.length_wrapped_le there) small
  obtain ⟨key, sequence⟩ := s
  cases key with
  | none => rfl
  | single k other =>
    have plain : ¬ k.wrapped.typeUrl = multisigTypeUrl := other
    simp only [signerInfo, SignerDraft.record, KeyDraft.wrapped?, if_neg plain,
      signerKey_wrapped (wrapper rfl)]
    rfl
  | several threshold keys =>
    have inner : (write (KeyDraft.severalFields threshold keys)).length < maxLength :=
      Nat.lt_of_le_of_lt (length_value_le ⟨multisigTypeUrl, _⟩) (wrapper rfl)
    have parts : message? multisig? (write (KeyDraft.severalFields threshold keys)) =
        some (keys.map (·.wrapped)) :=
      (spells_several threshold keys).message inner
    simp only [signerInfo, SignerDraft.record, KeyDraft.wrapped?, if_pos, parts, orAuthError,
      bind, Except.bind, mapM_signerKey inner]
    rfl

theorem feeOffer_record (fee : Option FeeDraft) :
    feeOffer (fee.map (·.record)) = .ok ((fee.map (·.offer)).getD .empty) := by
  cases fee with
  | none => rfl
  | some f =>
    have coins : (f.amount.map (·.text)).mapM coin = pure (f.amount.map (·.coin)) := by
      refine mapM_map_eq_pure fun c _ => ?_
      simp only [coin, c.spelt]
      rfl
    simp only [Option.map_some, feeOffer, FeeDraft.record, coins]
    rfl

variable {tx : TxDraft}

theorem authInfo_authFields (small : (write tx.authFields).length < maxLength) :
    authInfo (write tx.authFields) = .ok tx.authInfo := by
  have record : message? authRecord? (write tx.authFields) =
      some ⟨tx.signers.map (·.record), tx.fee.map (·.record)⟩ := (spells_auth tx).message small
  have signers : (tx.signers.map (·.record)).mapM signerInfo = pure (tx.signers.map (·.info)) := by
    refine mapM_map_eq_pure fun s hs => signerInfo_record ?_
    have part := length_le_ofRecords 1 SignerDraft.fields hs
    simp only [TxDraft.authFields, write_append, List.length_append] at small
    omega
  simp only [authInfo, record, orAuthError, signers, feeOffer_record, bind, Except.bind]
  rfl

/-- The envelope of a draft's encoding. -/
def draftEnvelope (tx : TxDraft) : RawTx :=
  ⟨write tx.bodyFields, write tx.authFields, tx.signatures⟩

theorem envelope_encode (small : tx.encode.length < maxLength) :
    envelope tx.encode = .ok (draftEnvelope tx) :=
  envelope_eq_ok.mpr ((spells_raw tx).message small)

theorem wholeBody_encode (small : tx.encode.length < maxLength) :
    wholeBody (draftEnvelope tx) = .ok
      (⟨tx.messages, tx.memo, tx.timeoutHeight.toNat⟩, ⟨tx.critical, tx.nonCritical⟩) := by
  have read := (spells_body tx).message (Nat.lt_of_le_of_lt tx.length_bodyFields_le small)
  simp only [wholeBody, draftEnvelope, read]

theorem authInfo_encode (small : tx.encode.length < maxLength) :
    authInfo (draftEnvelope tx).authInfo = .ok tx.authInfo :=
  authInfo_authFields (Nat.lt_of_le_of_lt tx.length_authFields_le small)

/-- The fallback reads what the draft says and reports its options. -/
theorem decodeFallback_encode (small : tx.encode.length < maxLength) :
    decodeFallback tx.encode = .ok {
      messages := tx.messages, memo := tx.memo, timeoutHeight := tx.timeoutHeight.toNat,
      authInfo := tx.authInfo, droppedExtensions := tx.optionTypes, usedFallback := true } := by
  obtain ⟨hb, hx⟩ := wholeBody_eq_ok.mp (wholeBody_encode small)
  refine decodeFallback_eq_ok.mpr ⟨_, _, envelope_encode small, hb, ?_⟩
  simp [authInfo_encode small, extensionTypes, hx, TxDraft.optionTypes, Except.toOption]

/-- Whether the strict decoder accepts the encoding of a draft. -/
def accepts (d : Decoder) (tx : TxDraft) : Bool :=
  tx.critical.isEmpty && tx.messages.all fun m => d.isRegistered m.typeUrl

/-- **Decoding undoes encoding.** From the encoding of a draft exactly what the draft
says is read. Nothing is dropped if all message types are registered and there is no
critical option; otherwise the fallback is used and all options are reported. -/
theorem decode_encode (d : Decoder) (tx : TxDraft) (small : tx.encode.length < maxLength) :
    d.decode tx.encode = .ok {
      messages := tx.messages, memo := tx.memo, timeoutHeight := tx.timeoutHeight.toNat,
      authInfo := tx.authInfo
      droppedExtensions := if d.accepts tx then [] else tx.optionTypes
      usedFallback := !d.accepts tx } := by
  obtain ⟨hb, hx⟩ := wholeBody_eq_ok.mp (wholeBody_encode small)
  by_cases accepted : d.accepts tx = true
  · have plain : tx.critical = [] ∧ ∀ m ∈ tx.messages, d.isRegistered m.typeUrl = true := by
      simpa [accepts] using accepted
    have strict := decodeStrict_eq_ok.mpr ⟨_, _, _, _, envelope_encode small, hb, hx, plain.1,
      plain.2, authInfo_encode small, rfl⟩
    simp [decode, strict, accepted]
  · cases strict : d.decodeStrict tx.encode with
    | ok found =>
      -- What the strict decoder accepts is read in one way only, so the draft was acceptable.
      obtain ⟨raw, b, x, auth, hraw, hb', hx', noCritical, registered, -, -⟩ :=
        decodeStrict_eq_ok.mp strict
      obtain rfl : raw = draftEnvelope tx := by simpa [envelope_encode small] using hraw.symm
      have body : b = _ := Except.ok.inj (hb'.symm.trans hb)
      have options : x = _ := Except.ok.inj (hx'.symm.trans hx)
      subst body options
      exact absurd (by simpa [accepts] using ⟨noCritical, registered⟩) accepted
    | error e => simp [decode, strict, decodeFallback_encode small, accepted]

/-- A decoder that knows no message types. -/
def unregistered : Decoder := ⟨⟨"osmo", by decide +kernel⟩, []⟩

/-- 500 of a denomination, as two texts and as a coin. -/
def smallCoin : CoinDraft := ⟨⟨"uosmo", "500"⟩, ⟨⟨500, 0⟩, "uosmo"⟩, rfl⟩

/-- Two keys of which one signs, a fee, and an option of either sort. -/
def jointDraft : TxDraft where
  messages := [⟨"/cosmos.bank.v1beta1.MsgSend", [10, 1, 97]⟩, ⟨"/cosmos.gov.v1beta1.MsgVote", []⟩]
  memo := "joint"
  timeoutHeight := 7
  critical := [⟨"/ethermint.types.v1.ExtensionOptionsWeb3Tx", [1]⟩]
  nonCritical := [⟨"/osmosis.txfees.v1beta1.Hint", []⟩]
  signers := [
    ⟨.several 1 [⟨"/cosmos.crypto.secp256k1.PubKey", [2, 3]⟩,
      ⟨"/cosmos.crypto.ed25519.PubKey", [4]⟩], 300⟩,
    ⟨.none, 0⟩]
  fee := some ⟨[smallCoin], 200000, "", "osmo1granter"⟩
  signatures := [[1, 2, 3], []]

theorem decode_encode_jointDraft :
    jointDraft.encode.length < maxLength ∧ unregistered.decode jointDraft.encode = .ok {
      messages := jointDraft.messages, memo := "joint", timeoutHeight := 7
      authInfo := {
        signers := [
          ⟨multisigTypeUrl, [⟨"/cosmos.crypto.secp256k1.PubKey", [2, 3]⟩,
            ⟨"/cosmos.crypto.ed25519.PubKey", [4]⟩], 300⟩,
          ⟨"", [], 0⟩]
        fee := ⟨[⟨⟨500, 0⟩, "uosmo"⟩], 200000, "", "osmo1granter"⟩ }
      droppedExtensions :=
        ["/ethermint.types.v1.ExtensionOptionsWeb3Tx", "/osmosis.txfees.v1beta1.Hint"]
      usedFallback := true } := by
  have small : jointDraft.encode.length < maxLength := by decide +kernel
  exact ⟨small, decode_encode unregistered jointDraft small⟩

end Decoder

end ChainIndex
