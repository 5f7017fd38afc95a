/-
Requests, failures, fetched heights and the content of a store as JSON records.
-/
import ChainIndex.Denom.AssetList
import ChainIndex.Fetch
import ChainIndex.Record.Tx
import ChainIndex.Store.Memory
import ChainIndex.Writer

namespace ChainIndex

namespace Request

/-- A height with its two flags, in an array. -/
def ofRecord : Json → Request
  | .array [height, blockEvents, transactions] =>
    let j : Json := .object [("events", blockEvents), ("height", height), ("txs", transactions)]
    ⟨j.intAt "height", j.flagAt "events", j.flagAt "txs"⟩
  | _ => ⟨0, false, false⟩

def toRecord (r : Request) : Json :=
  .array [.ofSafe r.height, .bool r.blockEvents, .bool r.transactions]

end Request

namespace BlockStatus

/-- A height with its two flags, transactions first, in an array. -/
def ofRecord : Json → BlockStatus
  | .array [height, transactions, blockEvents] =>
    let r := Request.ofRecord (.array [height, blockEvents, transactions])
    ⟨r.height, r.transactions, r.blockEvents⟩
  | _ => .unindexed 0

def toRecord (s : BlockStatus) : Json :=
  .array [.ofSafe s.height, .bool s.transactions, .bool s.blockEvents]

end BlockStatus

namespace FailureRecord

def ofRecord (j : Json) : FailureRecord :=
  { height := j.intAt "height"
    chainId := j.textAt "chain_id"
    chainName := j.textAt "chain_name"
    kind := (DataKind.ofName? (j.textAt "kind")).getD .transactions
    reason := (FailureReason.ofName? (j.textAt "reason")).getD .blockQuery }

def members (r : FailureRecord) : List (String × Json) :=
  [("height", .ofSafe r.height), ("chain_id", .string r.chainId),
    ("chain_name", .string r.chainName),
    ("kind", .string r.kind.name), ("reason", .string r.reason.name)]

def toRecord (r : FailureRecord) : Json := .ofMembers r.members

end FailureRecord

def StoredFailure.toRecord (f : StoredFailure) : Json :=
  .ofMembers
    (f.record.members ++ [("attempts", .ofSafe f.attempts.toNat), ("resolved", .bool f.resolved)])

namespace MemoryStore

def failureRecords (m : MemoryStore) (chainId : String) : Json :=
  .ofList StoredFailure.toRecord (m.failuresOf chainId)

/-- What is stored of a height. -/
def heightRecord (m : MemoryStore) (chainId : String) (height : Int) : Json :=
  .ofMembers [("height", .ofSafe height),
    ("txs", .ofOption TxBatch.toRecord (m.txBatch? chainId height)),
    ("events", .ofOption EventBatch.toRecord (m.eventBatch? chainId height))]

/-- What is stored of a chain, with the batches if they are wanted. -/
def toRecord (m : MemoryStore) (chainId : String) (batches : Bool) : Json :=
  .ofMembers ([
    ("tx_indexed", .ofList .ofSafe (m.heightsIndexed chainId .transactions)),
    ("event_indexed", .ofList .ofSafe (m.heightsIndexed chainId .blockEvents)),
    ("failures", m.failureRecords chainId),
    ("writes", .array [.ofSafe m.txWrites, .ofSafe m.eventWrites])] ++
    if batches then
      [("batches", .ofList (fun s => m.heightRecord chainId s.height) (m.statuses chainId))]
    else [])

/-- A store with what earlier runs are said to have left in it. -/
def seed (now : Instant) (chainId : String) (j : Json) (m : MemoryStore) : Option MemoryStore := do
  let txs ← j.allAt "tx_batches" (TxBatch.ofRecord? now)
  let events ← j.allAt "event_batches" (EventBatch.ofRecord? now)
  let marks := (j.itemsAt "mark").map BlockStatus.ofRecord
  let m := marks.foldl (fun m s => m.mark chainId s.height s.transactions s.blockEvents) m
  let m := ((j.itemsAt "failed").map FailureRecord.ofRecord).foldl (fun m r => m.recordFailure r) m
  let m := txs.foldl (fun m b => m.writeTxs b) m
  return events.foldl (fun m b => m.writeEvents b) m

end MemoryStore

/-! Fetched heights -/

namespace Fetched

def toRecord (write : α → Json) : Fetched α → Json
  | got a => write a
  | failed reason => .object [("failed", .string reason.name)]
  | notAsked => .string "not_requested"

/-- What was got under one of the given names, or why it failed. -/
def ofRecord? (reads : List (String × (Json → Option α))) (j : Json) : Option (Fetched α) :=
  match reads.find? fun (name, _) => (j.get? name).isSome with
  | some (name, read) => (read (j.member name)).map .got
  | none =>
    match j.text? "failed" with
    | some reason => some (.failed ((FailureReason.ofName? reason).getD .blockQuery))
    | none => some .notAsked

end Fetched

def TxSource.toRecord : TxSource → Json
  | .search a =>
    .object [("search", .ofMembers (searchMembers a.txs a.results)), ("total", .ofSafe a.total)]
  | .blockBytes r => .object [("block_bytes", r.toRecord)]

namespace FetchedBlock

def ofRecord? (now : Instant) (j : Json) : Option FetchedBlock := do
  let results ← Fetched.ofRecord? [("fetched", BlockResults.ofJson?)] (j.member "block_results")
  let txs ← Fetched.ofRecord? [
    ("search", fun a => (SearchAnswer.ofRecord? a).map .search),
    ("block_bytes", fun r => (BlockResults.ofJson? r).map .blockBytes)] (j.member "txs")
  return { block := .ofRecord 0 now (j.member "block"), results, txs }

def toRecord (d : FetchedBlock) : Json :=
  .ofMembers [("block", d.block.toRecord),
    ("block_results", d.results.toRecord fun r => .object [("fetched", r.toRecord)]),
    ("txs", d.txs.toRecord TxSource.toRecord), ("events_failed", .bool d.results.hasFailed),
    ("txs_failed", .bool d.txs.hasFailed)]

end FetchedBlock

def WriterSummary.members (s : WriterSummary) : List (String × Json) :=
  [("tx_batches", .ofSafe s.txBatches), ("txs", .ofSafe s.txs),
    ("event_batches", .ofSafe s.eventBatches),
    ("failed_event_batches", .ofSafe s.failedEventBatches)]

def DenomMetadata.toRecord (d : DenomMetadata) : Json :=
  .ofMembers [("base", .string d.base), ("name", .string d.name), ("symbol", .string d.symbol),
    ("units", .ofList (fun u => .array [.string u.name, .ofSafe u.exponent]) d.units)]

def AssetList.toRecord (l : AssetList) : Json :=
  .ofMembers [
    ("chain_name", .string l.chainName),
    ("denoms", .ofList DenomMetadata.toRecord l.denoms)]

end ChainIndex
