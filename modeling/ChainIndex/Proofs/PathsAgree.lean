/-
The two ways in which a transaction comes into the index agree. Decoded from the bytes
in its block or read from a search answer, with the same result of running it, it is
indexed with the same content, or it fails for the same reason.
-/
import ChainIndex.Proofs.SearchForm

namespace ChainIndex

/-! ## What is compared -/

/-- A message with its place, without its payload. -/
def TxMessage.shown (m : TxMessage) : Nat × String × List Event :=
  (m.index, m.typeUrl, m.events)

/-- What both ways of indexing a transaction know of it. -/
structure TxRecord.Shared where
  code : Nat
  memo : String
  timeoutHeight : Nat
  signers : List String
  authInfo : AuthInfo
  fees : List Fee
  logs : List MessageLog
  messages : List (Nat × String × List Event)

def TxRecord.shared (tx : TxRecord) : Shared where
  code := tx.code
  memo := tx.memo
  timeoutHeight := tx.timeoutHeight
  signers := tx.signers
  authInfo := tx.authInfo
  fees := tx.fees
  logs := tx.logs
  messages := tx.messages.map (·.shown)

/-- The result of running a transaction as a search gives it: beside the hash and the
time of its block, and with its logs in the raw log or in the events only. -/
def TxResult.asFound (r : TxResult) (height : Int) (hash timestamp : String) : SearchResult where
  height := height
  hash := hash
  codespace := r.codespace
  code := r.code
  rawLog := r.log
  logs := []
  info := r.info
  gasWanted := r.gasWanted
  gasUsed := r.gasUsed
  timestamp := timestamp
  events := r.events

/-! ## Messages -/

/-- The events of a message that is attached to a log. -/
def shownWith (logs : List MessageLog) (m : Nat × String × List Event) :
    Nat × String × List Event :=
  match logs.find? (·.index == m.1) with
  | some log => (m.1, m.2.1, log.events)
  | none => m

/-- What is attached to messages depends on what is shown of them alone. -/
theorem shown_attachEvents (logs : List MessageLog) (ms : List TxMessage) :
    (attachEvents logs ms).map (·.shown) = (ms.map (·.shown)).map (shownWith logs) := by
  rw [attachEvents, List.map_map, List.map_map]
  refine List.map_congr_left fun m _ => ?_
  simp only [Function.comp_apply, shownWith, TxMessage.shown]
  cases logs.find? (·.index == m.index) <;> rfl

namespace Decoder

variable {d : Decoder} {tx : TxDraft} {spell : AnyMessage → Json}

/-- The messages of a draft in their places, with what a way of reading keeps of each. -/
def placedMessages (payload : AnyMessage → Payload) (tx : TxDraft) : List TxMessage :=
  tx.messages.zipIdx.map fun m =>
    { index := m.2, typeUrl := m.1.typeUrl, payload := payload m.1, events := [] }

/-- Whatever is kept of the messages, the same is shown of them. -/
theorem shown_placedMessages (payload payload' : AnyMessage → Payload) (tx : TxDraft) :
    (placedMessages payload tx).map (·.shown) = (placedMessages payload' tx).map (·.shown) := by
  simp only [placedMessages, List.map_map]
  rfl

theorem jsonMessages_found (named : ∀ m ∈ tx.messages, NamesType spell m) (hash : String) :
    ((tx.found spell).messages.zipIdx.mapM fun (m, i) => jsonMessage hash m i) =
      .ok (placedMessages (fun m => .json (spell m).plain) tx) := by
  rw [TxDraft.found, List.zipIdx_map]
  refine mapM_map_eq_pure fun ⟨m, i⟩ hm => ?_
  have type := (named m (List.fst_mem_of_mem_zipIdx hm)).2
  change jsonMessage hash (spell m).plain i = _
  rw [jsonMessage, type]
  rfl

variable {result : TxResult}

/-- The messages of a transaction that ran, out of a block. -/
theorem rawMessages_of_ran (ran : result.code = 0) {decoded : DecodedTx}
    (same : decoded.messages = tx.messages) :
    rawMessages decoded result =
      (MessageLog.ofResult result.code result.log result.events tx.messages.length).map fun logs =>
        (attachEvents logs (placedMessages (fun m => .raw m.value) tx), logs) := by
  rw [rawMessages, if_neg (not_not.mpr ran), same]
  cases MessageLog.ofResult result.code result.log result.events tx.messages.length <;> rfl

/-- The messages of a transaction that ran, out of a search answer. -/
theorem foundMessages_of_ran (ran : result.code = 0)
    (named : ∀ m ∈ tx.messages, NamesType spell m) (height : Int) (hash timestamp : String) :
    foundMessages (tx.found spell) (result.asFound height hash timestamp) =
      (MessageLog.ofResult result.code result.log result.events tx.messages.length).map fun logs =>
        (attachEvents logs (placedMessages (fun m => .json (spell m).plain) tx), logs) := by
  have ran' : (result.asFound height hash timestamp).code = 0 := ran
  have count : (tx.found spell).messages.length = tx.messages.length := List.length_map ..
  rw [foundMessages, if_neg (not_not.mpr ran'), count, TxResult.asFound]
  simp only [jsonMessages_found named]
  cases MessageLog.ofResult result.code result.log result.events tx.messages.length <;> rfl

/-- Both ways show the same messages and logs. -/
theorem shown_messages (named : ∀ m ∈ tx.messages, NamesType spell m) {decoded : DecodedTx}
    (same : decoded.messages = tx.messages) (result : TxResult) (height : Int)
    (hash timestamp : String) :
    (rawMessages decoded result).map (fun r => (r.1.map (·.shown), r.2)) =
      (foundMessages (tx.found spell) (result.asFound height hash timestamp)).map
        fun r => (r.1.map (·.shown), r.2) := by
  by_cases ran : result.code = 0
  · rw [rawMessages_of_ran ran same, foundMessages_of_ran ran named]
    cases MessageLog.ofResult result.code result.log result.events tx.messages.length with
    | error e => rfl
    | ok logs =>
      simp only [Except.map, shown_attachEvents]
      rw [shown_placedMessages]
  · have ran' : (result.asFound height hash timestamp).code ≠ 0 := ran
    rw [rawMessages, foundMessages, if_pos ran, if_pos ran']

/-! ## Transactions -/

/-- What is indexed of a transaction with these addresses and messages. -/
def sharedOf (code : Nat) (memo : String) (timeoutHeight : Nat) (auth : AuthInfo)
    (addresses : List String) (shown : List (Nat × String × List Event) × List MessageLog) :
    TxRecord.Shared :=
  let signers := collectSigners addresses auth.fee.payer
  { code, memo, timeoutHeight, signers, authInfo := auth, fees := collectFees auth.fee signers
    logs := shown.2, messages := shown.1 }

theorem shared_normalizeRaw {block : Block} {bs : Bytes} {decoded : DecodedTx}
    {addresses : List String} (read : d.decode bs = .ok decoded)
    (resolved : d.signerAddresses decoded.authInfo = .ok addresses) :
    (d.normalizeRaw block bs result).map (·.shared) =
      ((rawMessages decoded result).map fun r => (r.1.map (·.shown), r.2)).map
        (sharedOf result.code decoded.memo decoded.timeoutHeight decoded.authInfo addresses) := by
  simp only [normalizeRaw, read, resolved, bind, Except.bind]
  cases rawMessages decoded result <;> rfl

theorem shared_normalizeFound {block : Block} {found : SearchTx} {answer : SearchResult}
    {auth : AuthInfo} {addresses : List String}
    (read : d.jsonAuthInfo found.authInfo = .ok (auth, addresses)) :
    (d.normalizeFound block found answer).map (·.shared) =
      ((foundMessages found answer).map fun r => (r.1.map (·.shown), r.2)).map
        (sharedOf answer.code found.memo found.timeoutHeight.toNat auth addresses) := by
  simp only [normalizeFound, read, bind, Except.bind]
  cases foundMessages found answer <;> rfl

theorem decode_draft (d : Decoder) (small : tx.encode.length < Wire.maxLength) :
    ∃ decoded, d.decode tx.encode = .ok decoded ∧ decoded.content = tx.content := by
  have same := content_decode d tx.encode
  rw [decodeFallback_encode small] at same
  cases read : d.decode tx.encode with
  | error e =>
    rw [read] at same
    cases same
  | ok decoded =>
    rw [read] at same
    exact ⟨decoded, rfl, Except.ok.inj same⟩

/-- **The two ways agree.** The encoding of a draft in its block and the draft's form in
a search answer, each with the same result of running it, are indexed with the same
content, or both fail for the same reason. -/
theorem normalizeRaw_eq_normalizeFound (d : Decoder) (block : Block) (tx : TxDraft)
    (spell : AnyMessage → Json) (result : TxResult) (hash timestamp : String)
    (small : tx.encode.length < Wire.maxLength)
    (timely : tx.timeoutHeight.toNat ≤ Text.maxInt64)
    (supported : ∀ k ∈ tx.keys, k.IsSupported)
    (named : ∀ m ∈ tx.messages ++ tx.critical ++ tx.nonCritical, NamesType spell m) :
    ∃ found, SearchTx.ofJson? (tx.form spell) = some found ∧
      (d.normalizeRaw block tx.encode result).map (·.shared) =
        (d.normalizeFound block found (result.asFound block.height hash timestamp)).map
          (·.shared) := by
  obtain ⟨decoded, read, content⟩ := decode_draft d small
  obtain ⟨messages, memo, timeoutHeight, authInfo, dropped, fallback⟩ := decoded
  obtain ⟨rfl, rfl, rfl, rfl⟩ : messages = tx.messages ∧ memo = tx.memo ∧
      timeoutHeight = tx.timeoutHeight.toNat ∧ authInfo = tx.authInfo := by
    simpa [DecodedTx.content, TxDraft.content] using content
  have typed : ∀ m ∈ tx.messages, NamesType spell m := fun m hm => named m (by simp [hm])
  refine ⟨tx.found spell, TxDraft.ofJson?_form timely named, ?_⟩
  rw [shared_normalizeRaw read (d.signerAddresses_draft supported),
    shared_normalizeFound (d.jsonAuthInfo_form supported),
    shown_messages typed rfl result block.height hash timestamp]
  rfl

/-- A node that writes of a message its type only. -/
def typeOnly (m : AnyMessage) : Json := .object [("@type", .string m.typeUrl)]

/-- A key of either sort, both of which sign, and a signer without a key. -/
def mixedDraft : TxDraft where
  messages := [⟨"/cosmos.bank.v1beta1.MsgSend", [10, 1, 97]⟩, ⟨"/cosmos.gov.v1beta1.MsgVote", []⟩]
  memo := "mixed"
  timeoutHeight := 7
  critical := []
  nonCritical := [⟨"/osmosis.txfees.v1beta1.Hint", []⟩]
  signers := [
    ⟨.several 2 [⟨"/cosmos.crypto.secp256k1.PubKey", List.replicate 33 2⟩,
      ⟨"/cosmos.crypto.ed25519.PubKey", List.replicate 32 3⟩], 300⟩,
    ⟨.none, 0⟩]
  fee := some ⟨[smallCoin], 200000, "", ""⟩
  signatures := [[1, 2, 3]]

theorem normalizeRaw_eq_normalizeFound_mixedDraft :
    let block : Block := ⟨5, "B5", ⟨0, 0⟩, "", [mixedDraft.encode]⟩
    (∀ k ∈ mixedDraft.keys, k.IsSupported) ∧
      ∃ found, SearchTx.ofJson? (mixedDraft.form typeOnly) = some found ∧
        (unregistered.normalizeRaw block mixedDraft.encode .empty).map (·.shared) =
          (unregistered.normalizeFound block found
            (TxResult.empty.asFound 5 "A5" "2026-01-01T00:00:00Z")).map (·.shared) := by
  have small : mixedDraft.encode.length < Wire.maxLength := by decide +kernel
  have supported : ∀ k ∈ mixedDraft.keys, k.IsSupported := by
    intro k hk
    have kinds : k = ⟨"/cosmos.crypto.secp256k1.PubKey", List.replicate 33 2⟩ ∨
        k = ⟨"/cosmos.crypto.ed25519.PubKey", List.replicate 32 3⟩ := by
      simpa [TxDraft.keys, mixedDraft, KeyDraft.keys] using hk
    rcases kinds with rfl | rfl
    · exact .inl rfl
    · exact .inr ⟨by decide +kernel, rfl⟩
  have named (m : AnyMessage) : NamesType typeOnly m := by
    have members : ∀ e ∈ [("@type", Json.string m.typeUrl)], e.2.IsReadable := by
      simp [Json.IsReadable.string]
    exact ⟨.object members, Json.get?_plain members "@type"⟩
  exact ⟨supported, normalizeRaw_eq_normalizeFound unregistered _ mixedDraft typeOnly .empty "A5"
    "2026-01-01T00:00:00Z" small (by decide) supported fun m _ => named m⟩

end Decoder

end ChainIndex
