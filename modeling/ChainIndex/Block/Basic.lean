/-
Blocks and their results, as a node gives them. A result's JSON is written by
`toJson` and read by `ofJson?`, which also takes the other spellings nodes use:
integers as decimal texts, zeros as empty texts or null, and empty lists as
null or left out.
-/
import ChainIndex.Bytes.Basic
import ChainIndex.Event
import ChainIndex.Instant

namespace ChainIndex

/-- The heights a node can serve. -/
structure NodeStatus where
  earliest : Int
  latest : Int
  catchingUp : Bool
  deriving DecidableEq, Inhabited

/-- A block with the bytes of its transactions. -/
structure Block where
  height : Int
  hash : String
  time : Instant
  proposer : String
  txs : List Bytes
  deriving DecidableEq, Inhabited

/-- How one transaction of a block ran. -/
structure TxResult where
  code : Nat
  codespace : String
  log : String
  info : String
  gasWanted : Int
  gasUsed : Int
  events : List Event
  deriving DecidableEq, Inhabited

structure BlockResults where
  height : Int
  txResults : List TxResult
  beginEvents : List Event
  endEvents : List Event
  finalizeEvents : List Event
  deriving DecidableEq, Inhabited

namespace TxResult

def empty : TxResult := ⟨0, "", "", "", 0, 0, []⟩

def fieldNames : List String :=
  ["code", "codespace", "log", "info", "gas_wanted", "gas_used", "events"]

def ofJson? (j : Json) : Option TxResult := do
  let f ← j.fields fieldNames
  let code ← f.getD "code" 0 Json.word32
  let codespace ← f.getD "codespace" "" Json.text
  let log ← f.getD "log" "" Json.text
  let info ← f.getD "info" "" Json.text
  let gasWanted ← f.getD "gas_wanted" 0 Json.int64
  let gasUsed ← f.getD "gas_used" 0 Json.int64
  let events ← f.getD "events" [] (Json.listOrNull Event.ofJson?)
  return { code, codespace, log, info, gasWanted, gasUsed, events }

def toJson (r : TxResult) : Json :=
  .object [
    ("code", .ofNat r.code), ("codespace", .string r.codespace),
    ("events", .array (r.events.map Event.toJson)), ("gas_used", .ofInt r.gasUsed),
    ("gas_wanted", .ofInt r.gasWanted), ("info", .string r.info), ("log", .string r.log)]

end TxResult

namespace BlockResults

def empty : BlockResults := ⟨0, [], [], [], []⟩

def fieldNames : List String :=
  ["height", "txs_results", "begin_block_events", "end_block_events", "finalize_block_events"]

def ofJson? (j : Json) : Option BlockResults := do
  let f ← j.fields fieldNames
  let height ← f.getD "height" 0 Json.int64
  let txResults ← f.getD "txs_results" [] (Json.listOrNull TxResult.ofJson?)
  let beginEvents ← f.getD "begin_block_events" [] (Json.listOrNull Event.ofJson?)
  let endEvents ← f.getD "end_block_events" [] (Json.listOrNull Event.ofJson?)
  let finalizeEvents ← f.getD "finalize_block_events" [] (Json.listOrNull Event.ofJson?)
  return { height, txResults, beginEvents, endEvents, finalizeEvents }

def toJson (r : BlockResults) : Json :=
  .object [
    ("begin_block_events", .array (r.beginEvents.map Event.toJson)),
    ("end_block_events", .array (r.endEvents.map Event.toJson)),
    ("finalize_block_events", .array (r.finalizeEvents.map Event.toJson)),
    ("height", .ofInt r.height),
    ("txs_results", .array (r.txResults.map TxResult.toJson))]

end BlockResults

end ChainIndex
