/-
Blocks and their events as JSON records.
-/
import ChainIndex.Block.Basic
import ChainIndex.Json.Member
import ChainIndex.Tx.Basic

namespace ChainIndex

namespace Instant

/-- The instant of a member; a missing or empty one is `missing`. -/
def ofMember (j : Json) (key : String) (missing : Instant) : Instant :=
  let s := j.textAt key
  if s.isEmpty then missing else (rfc3339? s).getD epoch

def toRecord (t : Instant) : Json := .string t.render

end Instant

def NodeStatus.toRecord (s : NodeStatus) : Json :=
  .array [.ofSafe s.earliest, .ofSafe s.latest, .bool s.catchingUp]

namespace Block

/-- A block; what is missing of its height and time is supplied. -/
def ofRecord (height : Int) (now : Instant) (j : Json) : Block :=
  { height := j.intD "height" height
    hash := j.textAt "hash"
    time := .ofMember j "time" now
    proposer := j.textAt "proposer_address"
    txs := (j.textsAt "txs").map fun hex => (Bytes.ofHex? hex).getD [] }

def toRecord (b : Block) : Json :=
  .ofMembers [("height", .ofSafe b.height), ("hash", .string b.hash), ("time", b.time.toRecord),
    ("proposer_address", .string b.proposer), ("txs", .ofTexts (b.txs.map Bytes.toHex))]

end Block

def BlockResults.toRecord (r : BlockResults) : Json := r.toJson.safe

namespace BlockEvent

def ofRecord? (j : Json) : Option BlockEvent := do
  let attributes ← j.allAt "attributes" Attribute.ofJson?
  return {
    position := .ofName (j.textAt "position")
    index := j.natAt "event_index"
    eventType := j.textAt "event_type"
    attributes }

def toRecord (e : BlockEvent) : Json :=
  .ofMembers [("position", .string e.position.name), ("event_index", .ofSafe e.index),
    ("event_type", .string e.eventType), ("attributes", .ofList Attribute.toJson e.attributes)]

end BlockEvent

namespace EventData

/-- The amount of a text; a text that is no amount is zero. -/
def amountOf (s : String) : Decimal := (Decimal.parse? s).toOption.getD .zero

def ofRecord (j : Json) : EventData :=
  { address := j.textAt "address"
    amount := amountOf (j.textAt "amount")
    denom := j.textAt "denomination"
    source := (EventSource.ofName? (j.textAt "event_source")).getD .coinReceived }

def toRecord (d : EventData) : Json :=
  .ofMembers [("address", .string d.address), ("amount", .string d.amount.render),
    ("denomination", .string d.denom), ("event_source", .string d.source.name)]

end EventData

namespace EventBatch

def ofRecord? (now : Instant) (j : Json) : Option EventBatch := do
  let events ← j.allAt "events" BlockEvent.ofRecord?
  return {
    chainId := j.textAt "chain_id"
    height := j.intAt "height"
    blockHash := j.textAt "block_hash"
    time := .ofMember j "time" now
    events
    data := (j.itemsAt "relevant_data").map EventData.ofRecord
    hasEpochData := j.flagAt "has_epoch_data" }

def toRecord (b : EventBatch) : Json :=
  .ofMembers [("chain_id", .string b.chainId), ("height", .ofSafe b.height),
    ("block_hash", .string b.blockHash), ("time", b.time.toRecord),
    ("events", .ofList BlockEvent.toRecord b.events),
    ("relevant_data", .ofList EventData.toRecord b.data), ("has_epoch_data", .bool b.hasEpochData)]

end EventBatch

end ChainIndex
