/-
Transactions as a node's search gives them: the transaction with its messages
in JSON beside the result of running it, in pages. A page states how many
transactions the whole answer has, in one of two places.
-/
import ChainIndex.Event

namespace ChainIndex

/-- A transaction of a search answer; what its messages and its auth info hold
is left in JSON. -/
structure SearchTx where
  messages : List Json
  memo : String
  timeoutHeight : Int
  extensionOptions : List Json
  nonCriticalExtensionOptions : List Json
  authInfo : Json
  signatures : List String
  deriving Inhabited

/-- The log of one message. -/
structure SearchLog where
  messageIndex : Int
  log : String
  events : List Event
  deriving DecidableEq, Inhabited

/-- How a found transaction ran. -/
structure SearchResult where
  height : Int
  hash : String
  codespace : String
  code : Nat
  rawLog : String
  logs : List SearchLog
  info : String
  gasWanted : Int
  gasUsed : Int
  timestamp : String
  events : List Event
  deriving DecidableEq, Inhabited

structure SearchPage where
  txs : List SearchTx
  results : List SearchResult
  paginationTotal : Option Int
  total : Int
  deriving Inhabited

/-- The pages of a height put together. -/
structure SearchAnswer where
  txs : List SearchTx
  results : List SearchResult
  total : Nat
  deriving Inhabited

namespace SearchTx

def empty : SearchTx := ⟨[], "", 0, [], [], .null, []⟩

/-- The fields of the body are nested one level deeper. -/
def bodyNames : List String :=
  ["messages", "memo", "timeout_height", "extension_options", "non_critical_extension_options"]

def bodyOfJson? (tx : SearchTx) (j : Json) : Option SearchTx := do
  let f ← j.fields bodyNames
  let messages ← f.getD "messages" [] (Json.list Json.canonical)
  let memo ← f.getD "memo" "" Json.text
  let timeoutHeight ← f.getD "timeout_height" 0 Json.int64
  let extensionOptions ← f.getD "extension_options" [] (Json.list Json.canonical)
  let nonCriticalExtensionOptions ←
    f.getD "non_critical_extension_options" [] (Json.list Json.canonical)
  return { tx with messages, memo, timeoutHeight, extensionOptions, nonCriticalExtensionOptions }

def ofJson? (j : Json) : Option SearchTx := do
  let f ← j.fields ["body", "auth_info", "signatures"]
  let tx ← f.getD "body" empty (bodyOfJson? empty)
  let authInfo ← f.getD "auth_info" .null Json.canonical
  let signatures ← f.getD "signatures" [] (Json.list Json.text)
  return { tx with authInfo, signatures }

end SearchTx

def SearchLog.ofJson? (j : Json) : Option SearchLog := do
  let f ← j.fields ["msg_index", "log", "events"]
  let messageIndex ← f.getD "msg_index" 0 Json.int64
  let log ← f.getD "log" "" Json.text
  let events ← f.getD "events" [] (Json.listOrNull Event.ofJson?)
  return ⟨messageIndex, log, events⟩

def SearchLog.toJson (l : SearchLog) : Json :=
  .object [
    ("events", .array (l.events.map Event.toJson)), ("log", .string l.log),
    ("msg_index", .ofInt l.messageIndex)]

namespace SearchResult

def empty : SearchResult := ⟨0, "", "", 0, "", [], "", 0, 0, "", []⟩

def fieldNames : List String :=
  ["height", "txhash", "codespace", "code", "raw_log", "logs", "info", "gas_wanted", "gas_used",
    "timestamp", "events"]

def ofJson? (j : Json) : Option SearchResult := do
  let f ← j.fields fieldNames
  let height ← f.getD "height" 0 Json.int64
  let hash ← f.getD "txhash" "" Json.text
  let codespace ← f.getD "codespace" "" Json.text
  let code ← f.getD "code" 0 Json.word32
  let rawLog ← f.getD "raw_log" "" Json.text
  let logs ← f.getD "logs" [] (Json.listOrNull SearchLog.ofJson?)
  let info ← f.getD "info" "" Json.text
  let gasWanted ← f.getD "gas_wanted" 0 Json.int64
  let gasUsed ← f.getD "gas_used" 0 Json.int64
  let timestamp ← f.getD "timestamp" "" Json.text
  let events ← f.getD "events" [] (Json.listOrNull Event.ofJson?)
  return {
    height, hash, codespace, code, rawLog, logs, info, gasWanted, gasUsed, timestamp, events }

end SearchResult

namespace SearchPage

def empty : SearchPage := ⟨[], [], none, 0⟩

def paginationOfJson? (j : Json) : Option Int := do
  let f ← j.fields ["total"]
  f.getD "total" 0 Json.int64

def ofJson? (j : Json) : Option SearchPage := do
  let f ← j.fields ["txs", "tx_responses", "pagination", "total"]
  let txs ← f.getD "txs" [] (Json.listOrNull SearchTx.ofJson?)
  let results ← f.getD "tx_responses" [] (Json.listOrNull SearchResult.ofJson?)
  let paginationTotal ← f.getD "pagination" none (Json.orNull paginationOfJson?)
  let total ← f.getD "total" 0 Json.int64
  return { txs, results, paginationTotal, total }

/-- The size of the whole answer: a positive count of the pagination, else the
page's own count; never negative. -/
def reportedTotal (p : SearchPage) : Nat :=
  match p.paginationTotal with
  | some n => if 0 < n then n.toNat else p.total.toNat
  | none => p.total.toNat

end SearchPage

end ChainIndex
