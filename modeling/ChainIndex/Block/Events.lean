/-
The events of a block in one form. Older nodes give keys and values in base64;
newer ones give one list of finalize events, each tagged with the mode that
says whether it belongs to the begin or the end of the block. `moveFinalize`
moves those events to the ends of the two lists in place, all of them or none.
-/
import ChainIndex.Block.Basic
import ChainIndex.Bytes.Base64
import ChainIndex.Task
import ChainIndex.Tx.Error

namespace ChainIndex

/-! Attributes in base64 -/

def base64Text (s : String) : Except DecodeError String :=
  match (Bytes.Base64.decode? s).bind Bytes.toText? with
  | some t => .ok t
  | none => .error (.invalidLogs ("attribute " ++ Text.quoted s))

namespace Attribute

def ofBase64 (a : Attribute) : Except DecodeError Attribute := do
  let key ← base64Text a.key
  let value ← base64Text a.value
  return { key, value }

def toBase64 (a : Attribute) : Attribute :=
  { key := Bytes.Base64.encode (Bytes.ofText a.key),
    value := Bytes.Base64.encode (Bytes.ofText a.value) }

/-- Attributes as plain texts; with `base64` they are given in base64. -/
def normalizeAll (base64 : Bool) (attributes : List Attribute) :
    Except DecodeError (List Attribute) :=
  if base64 then attributes.mapM ofBase64 else .ok attributes

end Attribute

namespace Event

def normalize (base64 : Bool) (e : Event) : Except DecodeError Event := do
  let attributes ← Attribute.normalizeAll base64 e.attributes
  return { e with attributes }

/-! Finalize events -/

def hasMode (mode : String) (e : Event) : Bool :=
  e.attributes.any fun a => a.key == "mode" && a.value == mode

def isBegin (e : Event) : Bool := e.hasMode "BeginBlock"

def isEnd (e : Event) : Bool := e.hasMode "EndBlock"

/-- An event that opens an epoch: it names this epoch, or none. -/
def startsEpoch (epoch : String) (e : Event) : Bool :=
  e.eventType == "epoch_start" && (e.attribute? "epoch_id").all (· == epoch)

end Event

/-- A finalize event that belongs to both lists or to neither. -/
inductive ModeError where
  | both (eventType : String)
  | neither (eventType : String)
  deriving DecidableEq

def ModeError.message : ModeError → String
  | both eventType =>
    "finalize block event " ++ eventType ++ " has both BeginBlock and EndBlock modes"
  | neither eventType =>
    "finalize block event " ++ eventType ++ " has no BeginBlock or EndBlock mode"

/-- The begin events and the end events among the finalize events, in order.
The first event without exactly one of the modes is refused. -/
def splitFinalize : List Event → Except ModeError (List Event × List Event)
  | [] => .ok ([], [])
  | e :: rest =>
    if e.isBegin ∧ e.isEnd then .error (.both e.eventType)
    else if e.isBegin then do
      let (begins, ends) ← splitFinalize rest
      return (e :: begins, ends)
    else if e.isEnd then do
      let (begins, ends) ← splitFinalize rest
      return (begins, e :: ends)
    else .error (.neither e.eventType)

namespace BlockResults

/-- Moves the finalize events to the two other lists, one list after the other. -/
def moveFinalize : Call BlockResults ModeError Unit := do
  let r ← get
  unless r.finalizeEvents.isEmpty do
    let (begins, ends) ← Call.ofExcept (splitFinalize r.finalizeEvents)
    modify fun r => { r with beginEvents := r.beginEvents ++ begins }
    modify fun r => { r with endEvents := r.endEvents ++ ends }
    modify fun r => { r with finalizeEvents := [] }

/-- The results with the finalize events moved to the two other lists. -/
def foldFinalize (r : BlockResults) : Except ModeError BlockResults :=
  let (outcome, moved) := moveFinalize.outcome.run r
  outcome.map fun _ => moved

end BlockResults

/-- The events of one position as records, numbered from zero. -/
def BlockEvent.number (position : BlockPosition) (events : List Event) : List BlockEvent :=
  events.zipIdx.map fun (e, index) =>
    { position, index, eventType := e.eventType, attributes := e.attributes }

/-- The begin and end events of a block as plain texts. -/
structure BlockEvents where
  begins : List Event
  ends : List Event
  deriving DecidableEq

namespace BlockEvents

def ofResults (base64 : Bool) (r : BlockResults) : Except DecodeError BlockEvents := do
  let begins ← r.beginEvents.mapM (Event.normalize base64)
  let ends ← r.endEvents.mapM (Event.normalize base64)
  return { begins, ends }

/-- All events as records, those of the begin block first. -/
def records (es : BlockEvents) : List BlockEvent :=
  BlockEvent.number .beginBlock es.begins ++ BlockEvent.number .endBlock es.ends

/-- All events with their position, those of the begin block first. -/
def placed (es : BlockEvents) : List (BlockPosition × Event) :=
  es.begins.map (.beginBlock, ·) ++ es.ends.map (.endBlock, ·)

end BlockEvents

end ChainIndex
