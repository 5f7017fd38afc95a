/-
Transactions as JSON records, as they are decoded, found, indexed and written.
-/
import ChainIndex.Record.Block
import ChainIndex.Tx.Decoder
import ChainIndex.Tx.Search

namespace ChainIndex

namespace Coin

def ofRecord (j : Json) : Coin :=
  { amount := EventData.amountOf (j.textAt "amount"), denom := j.textAt "denom" }

def toRecord (c : Coin) : Json :=
  .ofMembers [("amount", .string c.amount.render), ("denom", .string c.denom)]

end Coin

namespace Fee

def ofRecord (j : Json) : Fee :=
  { amount := EventData.amountOf (j.textAt "amount")
    denom := j.textAt "denomination"
    payer := j.textAt "payer_address" }

def toRecord (f : Fee) : Json :=
  .ofMembers [("amount", .string f.amount.render), ("denomination", .string f.denom),
    ("payer_address", .string f.payer)]

end Fee

/-! Auth info -/

namespace AuthInfo

def keyOfRecord (j : Json) : SignerKey :=
  { typeUrl := j.textAt "type_url", key := (Bytes.ofHex? (j.textAt "key")).getD [] }

def keyToRecord (k : SignerKey) : Json :=
  .ofMembers [
    ("type_url", .string k.typeUrl), ("key", .string k.key.toHex), ("type_hint", .string k.hint)]

def signerOfRecord (j : Json) : SignerInfo :=
  { keyTypeUrl := j.textAt "key_type_url"
    keys := (j.itemsAt "public_keys").map keyOfRecord
    sequence := j.natAt "sequence" }

def signerToRecord (i : SignerInfo) : Json :=
  .ofMembers [("key_type_url", .string i.keyTypeUrl), ("public_keys", .ofList keyToRecord i.keys),
    ("sequence", .ofSafe i.sequence)]

def feeOfRecord (j : Json) : FeeOffer :=
  { amount := (j.itemsAt "amount").map Coin.ofRecord
    gasLimit := j.natAt "gas_limit"
    payer := j.textAt "payer"
    granter := j.textAt "granter" }

def feeToRecord (f : FeeOffer) : Json :=
  .ofMembers [("amount", .ofList Coin.toRecord f.amount), ("gas_limit", .ofSafe f.gasLimit),
    ("payer", .string f.payer), ("granter", .string f.granter)]

def ofRecord (j : Json) : AuthInfo :=
  { signers := (j.itemsAt "signer_infos").map signerOfRecord, fee := feeOfRecord (j.member "fee") }

def toRecord (a : AuthInfo) : Json :=
  .ofMembers [("signer_infos", .ofList signerToRecord a.signers), ("fee", feeToRecord a.fee)]

end AuthInfo

def DecodedTx.toRecord (t : DecodedTx) : Json :=
  .ofMembers [
    ("messages", .ofList (fun m => .ofTexts [m.typeUrl, m.value.toHex]) t.messages),
    ("memo", .string t.memo), ("timeout_height", .ofSafe t.timeoutHeight),
    ("auth_info", t.authInfo.toRecord), ("dropped_extension_options", .ofTexts t.droppedExtensions),
    ("used_fallback", .bool t.usedFallback)]

/-! Search answers -/

def SearchTx.toRecord (x : SearchTx) : Json :=
  .ofMembers [("messages", .array x.messages), ("memo", .string x.memo),
    ("timeout_height", .ofSafe x.timeoutHeight), ("extension_options", .array x.extensionOptions),
    ("non_critical_extension_options", .array x.nonCriticalExtensionOptions),
    ("auth_info", x.authInfo), ("signatures", .ofTexts x.signatures)]

def SearchResult.toRecord (r : SearchResult) : Json :=
  .ofMembers [("height", .ofSafe r.height), ("txhash", .string r.hash),
    ("codespace", .string r.codespace), ("code", .ofSafe r.code), ("raw_log", .string r.rawLog),
    ("logs", .ofList (fun l => l.toJson.safe) r.logs), ("info", .string r.info),
    ("gas_wanted", .ofSafe r.gasWanted), ("gas_used", .ofSafe r.gasUsed),
    ("timestamp", .string r.timestamp), ("events", .ofList Event.toJson r.events)]

/-- The two lists that answers and pages have. -/
def searchMembers (txs : List SearchTx) (results : List SearchResult) : List (String × Json) :=
  [("txs", .ofList SearchTx.toRecord txs), ("tx_responses", .ofList SearchResult.toRecord results)]

namespace SearchAnswer

def ofRecord? (j : Json) : Option SearchAnswer := do
  let txs ← j.allAt "txs" SearchTx.ofJson?
  let results ← j.allAt "tx_responses" SearchResult.ofJson?
  return { txs, results, total := j.natAt "total" }

def toRecord (a : SearchAnswer) : Json :=
  .ofMembers (("total", .ofSafe a.total) :: searchMembers a.txs a.results)

end SearchAnswer

def SearchPage.toRecord (p : SearchPage) : Json :=
  .ofMembers (searchMembers p.txs p.results ++ [
    ("pagination_total", .ofOption .ofSafe p.paginationTotal), ("total", .ofSafe p.total),
    ("reported_total", .ofSafe p.reportedTotal)])

/-! Messages -/

namespace TxMessage

def payloadOfRecord (j : Json) : Payload :=
  match j.text? "raw" with
  | some hex => .raw ((Bytes.ofHex? hex).getD [])
  | none => .json (j.member "json")

def payloadToRecord : Payload → Json
  | .json j => .object [("json", j)]
  | .raw bs => .object [("raw", .string bs.toHex)]

def ofRecord? (j : Json) : Option TxMessage := do
  let events ← j.allAt "events" Event.ofMessageJson?
  return {
    index := j.natAt "message_index"
    typeUrl := j.textAt "type_url"
    payload := payloadOfRecord j
    events }

def toRecord (m : TxMessage) : Json :=
  .ofMembers [("message_index", .ofSafe m.index), ("type_url", .string m.typeUrl),
    ("payload", payloadToRecord m.payload), ("events", .ofList Event.toMessageJson m.events)]

end TxMessage

def MessageLog.toRecord (l : MessageLog) : Json :=
  .ofMembers [("msg_index", .ofSafe l.index), ("log", .string l.log),
    ("events", .ofList Event.toMessageJson l.events)]

namespace MessageData

def ofRecord (j : Json) : MessageData :=
  { messageIndex := j.natAt "message_index"
    typeUrl := j.textAt "type_url"
    sender := j.textAt "sender_address"
    receiver := j.textAt "receiver_address"
    amount := EventData.amountOf (j.textAt "amount")
    denom := j.textAt "denomination" }

def toRecord (d : MessageData) : Json :=
  .ofMembers [("message_index", .ofSafe d.messageIndex), ("type_url", .string d.typeUrl),
    ("sender_address", .string d.sender), ("receiver_address", .string d.receiver),
    ("amount", .string d.amount.render), ("denomination", .string d.denom)]

end MessageData

/-! Transactions -/

namespace TxRecord

/-- A transaction without its logs. -/
def ofRecord? (j : Json) : Option TxRecord := do
  let messages ← j.allAt "messages" TxMessage.ofRecord?
  return {
    hash := j.textAt "hash"
    height := j.intAt "height"
    timestamp := .ofMember j "timestamp" .epoch
    code := j.natAt "code"
    codespace := j.textAt "codespace"
    rawLog := j.textAt "raw_log"
    gasWanted := j.intAt "gas_wanted"
    gasUsed := j.intAt "gas_used"
    memo := j.textAt "memo"
    timeoutHeight := j.natAt "timeout_height"
    messages
    signers := j.textsAt "signers"
    authInfo := .ofRecord (j.member "auth_info")
    logs := []
    fees := (j.itemsAt "fees").map Fee.ofRecord
    data := (j.itemsAt "relevant_data").map MessageData.ofRecord
    droppedExtensions := j.textsAt "dropped_extension_options"
    decodedWithFallback := j.flagAt "decoded_with_fallback" }

def toRecord (t : TxRecord) : Json :=
  .ofMembers [("hash", .string t.hash), ("height", .ofSafe t.height),
    ("timestamp", t.timestamp.toRecord), ("code", .ofSafe t.code),
    ("codespace", .string t.codespace),
    ("raw_log", .string t.rawLog), ("gas_wanted", .ofSafe t.gasWanted),
    ("gas_used", .ofSafe t.gasUsed),
    ("memo", .string t.memo), ("timeout_height", .ofSafe t.timeoutHeight),
    ("messages", .ofList TxMessage.toRecord t.messages), ("signers", .ofTexts t.signers),
    ("auth_info", t.authInfo.toRecord), ("per_message_logs", .ofList MessageLog.toRecord t.logs),
    ("fees", .ofList Fee.toRecord t.fees), ("relevant_data", .ofList MessageData.toRecord t.data),
    ("dropped_extension_options", .ofTexts t.droppedExtensions),
    ("decoded_with_fallback", .bool t.decodedWithFallback), ("succeeded", .bool t.succeeded)]

end TxRecord

namespace TxBatch

def ofRecord? (now : Instant) (j : Json) : Option TxBatch := do
  let txs ← j.allAt "txs" TxRecord.ofRecord?
  return {
    chainId := j.textAt "chain_id"
    height := j.intAt "height"
    blockHash := j.textAt "block_hash"
    time := .ofMember j "time" now
    proposer := j.textAt "proposer_address"
    txs
    unprocessable := j.textsAt "unprocessable_txs" }

def toRecord (b : TxBatch) : Json :=
  .ofMembers [("chain_id", .string b.chainId), ("height", .ofSafe b.height),
    ("block_hash", .string b.blockHash), ("time", b.time.toRecord),
    ("proposer_address", .string b.proposer), ("txs", .ofList TxRecord.toRecord b.txs),
    ("unprocessable_txs", .ofTexts b.unprocessable), ("complete", .bool b.isComplete)]

end TxBatch

namespace WriteRequest

/-- A batch under the name of its kind. -/
def ofRecord? (now : Instant) (j : Json) : Option WriteRequest :=
  match j.get? "txs" with
  | some b => (TxBatch.ofRecord? now b).map .transactions
  | none => (EventBatch.ofRecord? now (j.member "events")).map .blockEvents

def toRecord (r : WriteRequest) : Json :=
  let batch := match r with
    | .transactions b => ("transactions", b.toRecord)
    | .blockEvents b => ("block_events", b.toRecord)
  .ofMembers [batch, ("height", .ofSafe r.height)]

end WriteRequest

end ChainIndex
