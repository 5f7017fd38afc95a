/-
A transaction out of a block and the same transaction out of a search answer come to the
same. The form of a draft is the JSON in which a node's search gives it: 64-bit numbers
as texts, byte strings in base64, an absent key or fee as null. How a message looks in
JSON is up to the node, except that it names its type.
-/
import ChainIndex.Json.Member
import ChainIndex.Proofs.Encoding
import ChainIndex.Proofs.PlainJson
import ChainIndex.Proofs.Spelling
import ChainIndex.Tx.Normal
import Mathlib.Data.List.Basic

namespace ChainIndex

/-! ## Forms -/

namespace SignerKey

def members (k : SignerKey) : List (String × Json) :=
  [("@type", .string k.typeUrl), ("key", .string (Bytes.Base64.encode k.key))]

def form (k : SignerKey) : Json := .object k.members

end SignerKey

namespace KeyDraft

def severalMembers (threshold : UInt32) (keys : List SignerKey) : List (String × Json) := [
  ("@type", .string multisigTypeUrl), ("threshold", .ofNat threshold.toNat),
  ("public_keys", .array (keys.map (·.form)))]

def form : KeyDraft → Json
  | none => .null
  | single key _ => key.form
  | several threshold keys => .object (severalMembers threshold keys)

end KeyDraft

namespace SignerDraft

def members (s : SignerDraft) : List (String × Json) :=
  [("public_key", s.key.form), ("sequence", .string (toString s.sequence.toNat))]

def form (s : SignerDraft) : Json := .object s.members

end SignerDraft

namespace CoinDraft

def members (c : CoinDraft) : List (String × Json) :=
  [("denom", .string c.text.denom), ("amount", .string c.text.amount)]

def form (c : CoinDraft) : Json := .object c.members

end CoinDraft

namespace FeeDraft

def members (f : FeeDraft) : List (String × Json) := [
  ("amount", .array (f.amount.map (·.form))),
  ("gas_limit", .string (toString f.gasLimit.toNat)),
  ("payer", .string f.payer), ("granter", .string f.granter)]

def form (f : FeeDraft) : Json := .object f.members

end FeeDraft

namespace TxDraft

def authMembers (tx : TxDraft) : List (String × Json) := [
  ("signer_infos", .array (tx.signers.map (·.form))),
  ("fee", Json.ofOption FeeDraft.form tx.fee)]

def authForm (tx : TxDraft) : Json := .object tx.authMembers

def bodyForm (spell : AnyMessage → Json) (tx : TxDraft) : Json :=
  .object [
    ("messages", .array (tx.messages.map spell)),
    ("memo", .string tx.memo),
    ("timeout_height", .string (toString tx.timeoutHeight.toNat)),
    ("extension_options", .array (tx.critical.map spell)),
    ("non_critical_extension_options", .array (tx.nonCritical.map spell))]

/-- The transaction in a search answer; `spell` is how a node writes a message. -/
def form (spell : AnyMessage → Json) (tx : TxDraft) : Json :=
  .object [
    ("body", tx.bodyForm spell), ("auth_info", tx.authForm),
    ("signatures", .array (tx.signatures.map fun s => .string (Bytes.Base64.encode s)))]

/-- The keys of all signers in their order. -/
def keys (tx : TxDraft) : List SignerKey := tx.signers.flatMap (·.key.keys)

end TxDraft

/-! ## Members of the plain forms -/

open Json (IsReadable plain)

namespace SignerKey

theorem members_readable (k : SignerKey) : ∀ m ∈ k.members, m.2.IsReadable := by
  simp [members, IsReadable.string]

theorem form_readable (k : SignerKey) : k.form.IsReadable := .object k.members_readable

theorem get?_type (k : SignerKey) : k.form.plain.get? "@type" = some (.string k.typeUrl) :=
  Json.get?_plain k.members_readable _

theorem get?_key (k : SignerKey) :
    k.form.plain.get? "key" = some (.string (Bytes.Base64.encode k.key)) :=
  Json.get?_plain k.members_readable _

theorem jsonKey?_form (k : SignerKey) :
    Decoder.jsonKey? k.form.plain = some (k.typeUrl, Bytes.Base64.encode k.key) := by
  rw [Decoder.jsonKey?, k.get?_type, k.get?_key]

end SignerKey

namespace KeyDraft

theorem keys_readable (keys : List SignerKey) : ∀ j ∈ keys.map (·.form), j.IsReadable := by
  simp [SignerKey.form_readable]

theorem severalMembers_readable (threshold : UInt32) (keys : List SignerKey) :
    ∀ m ∈ severalMembers threshold keys, m.2.IsReadable := by
  simp [severalMembers, IsReadable.string, IsReadable.ofNat, IsReadable.array (keys_readable keys)]

theorem form_readable (k : KeyDraft) : k.form.IsReadable := by
  cases k with
  | none => exact .null
  | single key _ => exact key.form_readable
  | several threshold keys => exact .object (severalMembers_readable threshold keys)

theorem textAt_form (k : KeyDraft) : k.form.plain.textAt "@type" = k.typeUrl := by
  cases k with
  | none => rfl
  | single key _ => exact Json.textAt_of_get? key.get?_type
  | several threshold keys =>
    exact Json.textAt_of_get? (Json.get?_plain (severalMembers_readable threshold keys) _)

/-- The keys of a signer are found in their order. -/
theorem jsonKeys_form (k : KeyDraft) :
    Decoder.jsonKeys k.form.plain =
      k.keys.map fun k => (k.typeUrl, Bytes.Base64.encode k.key) := by
  have type := k.textAt_form
  cases k with
  | none => rfl
  | single key other =>
    rw [Decoder.jsonKeys, type, typeUrl, if_neg other, form, key.jsonKey?_form]
    rfl
  | several threshold keys =>
    have items : (plain (.object (severalMembers threshold keys))).itemsAt "public_keys" = _ :=
      Json.itemsAt_plain (severalMembers_readable threshold keys) rfl (keys_readable keys)
    rw [Decoder.jsonKeys, type, typeUrl, if_pos rfl, form, items, List.map_map,
      List.filterMap_map]
    exact List.filterMap_eq_map_iff_forall_eq_some.mpr fun k _ => k.jsonKey?_form

end KeyDraft

namespace SignerDraft

theorem members_readable (s : SignerDraft) : ∀ m ∈ s.members, m.2.IsReadable := by
  simp [members, IsReadable.string, s.key.form_readable]

theorem form_readable (s : SignerDraft) : s.form.IsReadable := .object s.members_readable

theorem get?_publicKey (s : SignerDraft) :
    s.form.plain.get? "public_key" = some s.key.form.plain :=
  Json.get?_plain s.members_readable _

theorem get?_sequence (s : SignerDraft) :
    s.form.plain.get? "sequence" = some (.string (toString s.sequence.toNat)) :=
  Json.get?_plain s.members_readable _

end SignerDraft

namespace CoinDraft

theorem members_readable (c : CoinDraft) : ∀ m ∈ c.members, m.2.IsReadable := by
  simp [members, IsReadable.string]

theorem form_readable (c : CoinDraft) : c.form.IsReadable := .object c.members_readable

theorem textAt_denom (c : CoinDraft) : c.form.plain.textAt "denom" = c.text.denom :=
  Json.textAt_of_get? (Json.get?_plain c.members_readable _)

theorem textAt_amount (c : CoinDraft) : c.form.plain.textAt "amount" = c.text.amount :=
  Json.textAt_of_get? (Json.get?_plain c.members_readable _)

end CoinDraft

namespace FeeDraft

theorem coins_readable (f : FeeDraft) : ∀ j ∈ f.amount.map (·.form), j.IsReadable := by
  simp [CoinDraft.form_readable]

theorem members_readable (f : FeeDraft) : ∀ m ∈ f.members, m.2.IsReadable := by
  simp [members, IsReadable.string, IsReadable.array f.coins_readable]

theorem form_readable (f : FeeDraft) : f.form.IsReadable := .object f.members_readable

theorem itemsAt_amount (f : FeeDraft) :
    f.form.plain.itemsAt "amount" = f.amount.map (·.form.plain) := by
  rw [form, Json.itemsAt_plain f.members_readable rfl f.coins_readable, List.map_map]
  rfl

theorem get?_gasLimit (f : FeeDraft) :
    f.form.plain.get? "gas_limit" = some (.string (toString f.gasLimit.toNat)) :=
  Json.get?_plain f.members_readable _

theorem textAt_payer (f : FeeDraft) : f.form.plain.textAt "payer" = f.payer :=
  Json.textAt_of_get? (Json.get?_plain f.members_readable _)

theorem textAt_granter (f : FeeDraft) : f.form.plain.textAt "granter" = f.granter :=
  Json.textAt_of_get? (Json.get?_plain f.members_readable _)

end FeeDraft

namespace TxDraft

theorem signers_readable (tx : TxDraft) : ∀ j ∈ tx.signers.map (·.form), j.IsReadable := by
  simp [SignerDraft.form_readable]

theorem authMembers_readable (tx : TxDraft) : ∀ m ∈ tx.authMembers, m.2.IsReadable := by
  have fee : (Json.ofOption FeeDraft.form tx.fee).IsReadable := by
    cases tx.fee with
    | none => exact .null
    | some f => exact f.form_readable
  simp [authMembers, IsReadable.array tx.signers_readable, fee]

theorem authForm_readable (tx : TxDraft) : tx.authForm.IsReadable := .object tx.authMembers_readable

theorem itemsAt_signers (tx : TxDraft) :
    tx.authForm.plain.itemsAt "signer_infos" = tx.signers.map (·.form.plain) := by
  rw [authForm, Json.itemsAt_plain tx.authMembers_readable rfl tx.signers_readable, List.map_map]
  rfl

theorem get?_fee (tx : TxDraft) :
    tx.authForm.plain.get? "fee" = some (Json.ofOption FeeDraft.form tx.fee).plain :=
  Json.get?_plain tx.authMembers_readable _

end TxDraft

/-! ## Keys and their addresses -/

/-- 33 bytes, or 32 bytes of a type that speaks of ed25519. -/
def SignerKey.IsSupported (k : SignerKey) : Prop :=
  k.key.length = PublicKey.secp256k1Length ∨
    k.hint = "ed25519" ∧ k.key.length = PublicKey.ed25519Length

theorem SignerKey.IsSupported.ofBytes? {k : SignerKey} (h : k.IsSupported) :
    ∃ key, PublicKey.ofBytes? k.key k.hint = some key := by
  unfold PublicKey.ofBytes?
  split
  · exact ⟨_, rfl⟩
  · next short =>
    rcases h with long | ed25519
    · exact ⟨_, if_pos long⟩
    · exact absurd ed25519 short

namespace Decoder

/-- The address of a key that is supported. -/
def addressOf (d : Decoder) (k : SignerKey) : String := (d.keyAddress k).toOption.getD ""

variable (d : Decoder)

theorem keyAddress_of_supported {k : SignerKey} (h : k.IsSupported) :
    d.keyAddress k = .ok (d.addressOf k) := by
  obtain ⟨key, found⟩ := h.ofBytes?
  have written : d.keyAddress k = .ok (Bech32.encode d.book.hrp key.address) := by
    rw [keyAddress, AddressBook.ofKeyBytes, found]
    simp only [d.book.encode_address]
    rfl
  rw [addressOf, written]
  rfl

/-- In base64 a key is the same key. -/
theorem jsonSignerKey_encode {k : SignerKey} (h : k.IsSupported) :
    d.jsonSignerKey (k.typeUrl, Bytes.Base64.encode k.key) = .ok (k, d.addressOf k) := by
  obtain ⟨key, found⟩ := h.ofBytes?
  have address : (d.book.ofKeyText (Bytes.Base64.encode k.key) k.hint).mapError
      DecodeError.address = .ok (d.addressOf k) := by
    rw [d.book.ofKeyText_encode found]
    exact d.keyAddress_of_supported h
  simp only [jsonSignerKey, Bytes.Base64.decode?_encode, Option.getD_some]
  exact congrArg (fun r => r >>= fun address => pure (k, address)) address

/-! ## Auth info -/

theorem jsonWord64_toString (n : UInt64) :
    jsonWord64 (some (.string (toString n.toNat))) = n.toNat := by
  have small : n.toNat ≤ Text.maxWord64 := Nat.le_of_lt_succ n.toNat_lt
  rw [jsonWord64, Text.word64?_toString small, Option.getD_some]

theorem jsonSigner_form {s : SignerDraft} (supported : ∀ k ∈ s.key.keys, k.IsSupported) :
    d.jsonSigner s.form.plain = .ok (s.info, s.key.keys.map d.addressOf) := by
  have keys : (jsonKeys s.key.form.plain).mapM d.jsonSignerKey =
      pure (s.key.keys.map fun k => (k, d.addressOf k)) := by
    rw [s.key.jsonKeys_form]
    exact mapM_map_eq_pure fun k hk => d.jsonSignerKey_encode (supported k hk)
  have parts : (s.key.keys.map fun k => (k, d.addressOf k)).map (·.1) = s.key.keys := by
    simp [Function.comp_def]
  have addresses : (s.key.keys.map fun k => (k, d.addressOf k)).map (·.2) =
      s.key.keys.map d.addressOf := by simp
  rw [jsonSigner, s.get?_publicKey, s.get?_sequence, Option.getD_some]
  simp only [keys, s.key.textAt_form, jsonWord64_toString, pure_bind, parts, addresses]
  rfl

theorem jsonCoin_form (c : CoinDraft) : jsonCoin c.form.plain = .ok c.coin := by
  rw [jsonCoin, c.textAt_amount, c.textAt_denom, c.spelt]
  rfl

/-- No fee is the empty fee. -/
theorem jsonFee_form (fee : Option FeeDraft) :
    jsonFee (Json.ofOption FeeDraft.form fee).plain = .ok ((fee.map (·.offer)).getD .empty) := by
  cases fee with
  | none => rfl
  | some f =>
    have coins : (f.amount.map (·.form.plain)).mapM jsonCoin = pure (f.amount.map (·.coin)) :=
      mapM_map_eq_pure fun c _ => jsonCoin_form c
    rw [Json.ofOption, jsonFee, f.itemsAt_amount, coins, f.get?_gasLimit, jsonWord64_toString,
      f.textAt_payer, f.textAt_granter]
    rfl

theorem jsonAuthInfo_form {tx : TxDraft} (supported : ∀ k ∈ tx.keys, k.IsSupported) :
    d.jsonAuthInfo tx.authForm.plain = .ok (tx.authInfo, tx.keys.map d.addressOf) := by
  have signers : (tx.signers.map (·.form.plain)).mapM d.jsonSigner =
      pure (tx.signers.map fun s => (s.info, s.key.keys.map d.addressOf)) :=
    mapM_map_eq_pure fun s hs => d.jsonSigner_form fun k hk =>
      supported k (List.mem_flatMap.mpr ⟨s, hs, hk⟩)
  have addresses : (tx.signers.map fun s => (s.info, s.key.keys.map d.addressOf)).flatMap (·.2) =
      tx.keys.map d.addressOf := by
    rw [TxDraft.keys, List.map_flatMap, List.flatMap_map]
  rw [jsonAuthInfo, tx.itemsAt_signers, signers, tx.get?_fee, Option.getD_some, pure_bind,
    jsonFee_form, addresses]
  simp [TxDraft.authInfo]

/-- The addresses of the keys in the bytes. -/
theorem signerAddresses_draft {tx : TxDraft} (supported : ∀ k ∈ tx.keys, k.IsSupported) :
    d.signerAddresses tx.authInfo = .ok (tx.keys.map d.addressOf) := by
  have keys : tx.authInfo.signers.flatMap (·.keys) = tx.keys.map id := by
    rw [List.map_id, TxDraft.authInfo, TxDraft.keys, List.flatMap_map]
    rfl
  rw [signerAddresses, keys]
  exact mapM_map_eq_pure fun k hk => d.keyAddress_of_supported (supported k hk)

end Decoder

/-! ## Reading a search answer -/

/-- How a node writes messages: readable JSON that names the message's type. -/
def NamesType (spell : AnyMessage → Json) (m : AnyMessage) : Prop :=
  (spell m).IsReadable ∧ (spell m).plain.get? "@type" = some (.string m.typeUrl)

namespace TxDraft

variable {spell : AnyMessage → Json} {tx : TxDraft}

/-- What is read of the form. -/
def found (spell : AnyMessage → Json) (tx : TxDraft) : SearchTx where
  messages := tx.messages.map fun m => (spell m).plain
  memo := tx.memo
  timeoutHeight := tx.timeoutHeight.toNat
  extensionOptions := tx.critical.map fun m => (spell m).plain
  nonCriticalExtensionOptions := tx.nonCritical.map fun m => (spell m).plain
  authInfo := tx.authForm.plain
  signatures := tx.signatures.map Bytes.Base64.encode

theorem list_canonical {ms : List AnyMessage} (named : ∀ m ∈ ms, NamesType spell m) :
    Json.list Json.canonical (.array (ms.map spell)) = some (ms.map fun m => (spell m).plain) :=
  mapM_map_eq_pure fun m hm => (named m hm).1.canonical

theorem int64_timeoutHeight (timely : tx.timeoutHeight.toNat ≤ Text.maxInt64) :
    Json.int64 (.string (toString tx.timeoutHeight.toNat)) = some (tx.timeoutHeight.toNat : Int) := by
  have written : (toString tx.timeoutHeight.toNat).isEmpty = false := by
    cases empty : (toString tx.timeoutHeight.toNat).isEmpty with
    | false => rfl
    | true =>
      have digits := Text.toList_toString tx.timeoutHeight.toNat
      rw [String.isEmpty_iff.mp empty] at digits
      exact absurd digits.symm Nat.toDigits_ne_nil
  rw [Json.int64, written, if_neg Bool.false_ne_true, Text.int64?_toString timely]

theorem bodyOfJson?_form (timely : tx.timeoutHeight.toNat ≤ Text.maxInt64)
    (named : ∀ m ∈ tx.messages ++ tx.critical ++ tx.nonCritical, NamesType spell m) :
    SearchTx.bodyOfJson? .empty (tx.bodyForm spell) =
      some { tx.found spell with authInfo := .null, signatures := [] } := by
  -- Each name that the reader knows stands once in the form.
  have fields : ∃ f : Json.Fields, (tx.bodyForm spell).fields SearchTx.bodyNames = some f ∧
      f "messages" = some (.array (tx.messages.map spell)) ∧
      f "memo" = some (.string tx.memo) ∧
      f "timeout_height" = some (.string (toString tx.timeoutHeight.toNat)) ∧
      f "extension_options" = some (.array (tx.critical.map spell)) ∧
      f "non_critical_extension_options" = some (.array (tx.nonCritical.map spell)) :=
    ⟨_, rfl, rfl, rfl, rfl, rfl, rfl⟩
  obtain ⟨f, fields, messages, memo, timeout, critical, nonCritical⟩ := fields
  simp only [List.forall_mem_append] at named
  simp only [SearchTx.bodyOfJson?, fields, Json.Fields.getD_of_eq messages,
    list_canonical named.1.1, Json.Fields.getD_of_eq memo, Json.text,
    Json.Fields.getD_of_eq timeout, int64_timeoutHeight timely, Json.Fields.getD_of_eq critical,
    list_canonical named.1.2, Json.Fields.getD_of_eq nonCritical, list_canonical named.2,
    Option.bind_eq_bind, Option.bind_some]
  rfl

/-- A search answer that holds the form of a draft is read as the draft. -/
theorem ofJson?_form (timely : tx.timeoutHeight.toNat ≤ Text.maxInt64)
    (named : ∀ m ∈ tx.messages ++ tx.critical ++ tx.nonCritical, NamesType spell m) :
    SearchTx.ofJson? (tx.form spell) = some (tx.found spell) := by
  have fields : ∃ f : Json.Fields,
      (tx.form spell).fields ["body", "auth_info", "signatures"] = some f ∧
      f "body" = some (tx.bodyForm spell) ∧ f "auth_info" = some tx.authForm ∧
      f "signatures" =
        some (.array (tx.signatures.map fun s => .string (Bytes.Base64.encode s))) :=
    ⟨_, rfl, rfl, rfl, rfl⟩
  obtain ⟨f, fields, body, auth, signatures⟩ := fields
  have texts : Json.list Json.text
      (.array (tx.signatures.map fun s => .string (Bytes.Base64.encode s))) =
        some (tx.signatures.map Bytes.Base64.encode) :=
    mapM_map_eq_pure fun _ _ => rfl
  simp only [SearchTx.ofJson?, fields, Json.Fields.getD_of_eq body, bodyOfJson?_form timely named,
    Json.Fields.getD_of_eq auth, tx.authForm_readable.canonical, Json.Fields.getD_of_eq signatures,
    texts, Option.bind_eq_bind, Option.bind_some]
  rfl

end TxDraft

end ChainIndex
