/-
Which messages and which block events are stored. A list of message types keeps
the messages of those types, and an empty list keeps all. A position's event
filters keep the events on which the last filter that spoke says so; without
filters the position keeps all of its events. A filter speaks of a run of
consecutive events that it matches one by one: a run of one event, or a rolling
window. Filters are written in a JSON document.
-/
import ChainIndex.Config.Error
import ChainIndex.Event
import ChainIndex.Json.Reader
import ChainIndex.Json.Record
import ChainIndex.Tx.Basic

namespace ChainIndex

/-- A condition on one event: its type and possibly one attribute. -/
structure EventPattern where
  eventType : String
  condition : Option Attribute
  deriving DecidableEq

def EventPattern.accepts (p : EventPattern) (e : BlockEvent) : Bool :=
  e.eventType == p.eventType && p.condition.all e.attributes.contains

/-- Keeps or drops the runs of events that match the patterns in order. -/
structure EventFilter where
  patterns : List EventPattern
  isWindow : Bool
  inclusive : Bool
  deriving DecidableEq

namespace EventFilter

/-- Whether the events begin with a run that the filter matches. -/
def matchesAhead (f : EventFilter) (es : List BlockEvent) : Bool :=
  f.patterns.length ≤ es.length && (f.patterns.zip es).all fun (p, e) => p.accepts e

/-- The filters in the order in which they speak: those of single events, then
the windows. -/
def speakingOrder (fs : List EventFilter) : List EventFilter :=
  fs.filter (!·.isWindow) ++ fs.filter (·.isWindow)

/-- Sets the marks of `length` places from `start`. -/
def mark (start length : Nat) (value : Bool) (marks : List Bool) : List Bool :=
  marks.mapIdx fun i old => if start ≤ i ∧ i < start + length then value else old

/-- What the filters say about the runs that start at one place. -/
def markFrom (fs : List EventFilter) (es : List BlockEvent) (start : Nat) (marks : List Bool) :
    List Bool :=
  fs.foldl (fun marks f =>
    if f.matchesAhead (es.drop start) then mark start f.patterns.length f.inclusive marks
    else marks) marks

/-- Which events are kept; the places are gone through from the first one. -/
def marks (fs : List EventFilter) (es : List BlockEvent) : List Bool :=
  (List.range es.length).foldl (fun marks start => markFrom (speakingOrder fs) es start marks)
    (List.replicate es.length false)

def keep (fs : List EventFilter) (es : List BlockEvent) : List BlockEvent :=
  if fs.isEmpty then es
  else ((es.zip (marks fs es)).filter (·.2)).map (·.1)

end EventFilter

structure Filters where
  begins : List EventFilter
  ends : List EventFilter
  messageTypes : List String
  deriving DecidableEq

namespace Filters

def none : Filters := ⟨[], [], []⟩

def isEmpty (fs : Filters) : Bool :=
  fs.messageTypes.isEmpty && fs.begins.isEmpty && fs.ends.isEmpty

/-- How many filters there are for block events and for messages. -/
def counts (fs : Filters) : Nat × Nat :=
  (fs.begins.length + fs.ends.length, fs.messageTypes.length)

def keepsMessage (fs : Filters) (typeUrl : String) : Bool :=
  fs.messageTypes.isEmpty || fs.messageTypes.contains typeUrl

/-- The events that are stored, those of the begin block first. -/
def keepEvents (fs : Filters) (es : List BlockEvent) : List BlockEvent :=
  EventFilter.keep fs.begins (es.filter (·.position == .beginBlock)) ++
    EventFilter.keep fs.ends (es.filter (·.position != .beginBlock))

/-- Drops the messages that are not stored, and their logs. -/
def keepMessages (fs : Filters) (tx : TxRecord) : TxRecord :=
  let messages := tx.messages.filter fun m => fs.keepsMessage m.typeUrl
  if messages.length < tx.messages.length then
    { tx with
      messages
      logs := tx.logs.filter fun l => messages.any (·.index == l.index) }
  else tx

end Filters

/-! Filter documents -/

/-- A filter as it is written; it may be written in a way that is refused. -/
inductive WrittenFilter where
  | eventType (eventType : String) (inclusive : Bool)
  | attributeValue (eventType key value : String) (inclusive : Bool)
  | window (subfilters : List WrittenFilter) (inclusive : Bool)

/-- The lists of a filter document. -/
structure FilterDocument where
  begins : List WrittenFilter
  ends : List WrittenFilter
  messageTypes : List String

namespace WrittenFilter

/-- The kinds in the order of their numbers; only inside a window may a number
stand for a kind. -/
def kinds : List String := ["event_type", "event_type_and_attribute_value", "rolling_window"]

def kindOf? (inWindow : Bool) : Json → Option String
  | .string kind => some kind
  | .number (.integer n) => if inWindow ∧ 0 ≤ n then kinds[n.toNat]? else .none
  | _ => .none

/-- The kind of a tagged value, and the value with the fields of the kind: an
object holds its kind as the member `type`, an array as its first item. -/
def tagged? (inWindow : Bool) (j : Json) : Option (String × Json) := do
  let _ ← j.canonical
  match j with
  | .object _ => do
    let f ← j.fields ["type"]
    return (← f.get "type" (kindOf? inWindow), j)
  | .array (kind :: rest) => return (← kindOf? inWindow kind, .array rest)
  | _ => .none

/-- A filter, with at most `depth` windows inside each other. -/
def ofJson? (inWindow : Bool) : (depth : Nat) → Json → Option WrittenFilter
  | 0, _ => .none
  | depth + 1, j => do
    let (kind, j) ← tagged? inWindow j
    match kind with
    | "event_type" => do
      let f ← j.fields ["event_type", "inclusive"]
      return .eventType (← f.get "event_type" Json.text) (← f.getD "inclusive" false Json.boolean)
    | "event_type_and_attribute_value" => do
      let f ← j.fields ["event_type", "attribute_key", "attribute_value", "inclusive"]
      return .attributeValue (← f.get "event_type" Json.text) (← f.get "attribute_key" Json.text)
        (← f.get "attribute_value" Json.text) (← f.getD "inclusive" false Json.boolean)
    | "rolling_window" => do
      let f ← j.fields ["subfilters", "inclusive"]
      return .window (← f.get "subfilters" (Json.list (ofJson? true depth)))
        (← f.getD "inclusive" false Json.boolean)
    | _ => .none

/-- The pattern of a filter that is no window; no text of it may be empty. -/
def pattern : WrittenFilter → Except String EventPattern
  | .eventType t _ =>
    if t.isEmpty then .error "event_type must be set" else .ok ⟨t, .none⟩
  | .attributeValue t key value _ =>
    if t.isEmpty ∨ key.isEmpty ∨ value.isEmpty then
      .error "event_type, attribute_key and attribute_value must be set"
    else .ok ⟨t, some ⟨key, value⟩⟩
  | .window _ _ => .error "rolling windows cannot be nested"

def inclusive : WrittenFilter → Bool
  | .eventType _ i | .attributeValue _ _ _ i | .window _ i => i

/-- Applies a check to every element, and puts the place of the first refused
one before the complaint. -/
def checkAll (place : Nat → String) (check : α → Except String β) (xs : List α) :
    Except String (List β) :=
  xs.zipIdx.mapM fun (x, i) => (check x).mapError fun e => place i ++ ": " ++ e

def subfilterPlace (i : Nat) : String := s!"subfilter {i}"

/-- The filter that is meant. A window has at least one subfilter, and none of
them is a window. -/
def toFilter (w : WrittenFilter) : Except String EventFilter :=
  match w with
  | .window subfilters inclusive =>
    if subfilters.isEmpty then .error "subfilters must be set"
    else do
      let patterns ← checkAll subfilterPlace pattern subfilters
      return { patterns, isWindow := true, inclusive }
  | single => do
    let p ← pattern single
    return { patterns := [p], isWindow := false, inclusive := single.inclusive }

end WrittenFilter

namespace FilterDocument

def listNames : List String := ["begin_block_filters", "end_block_filters", "message_type_filters"]

def messageTypeOfJson? (j : Json) : Option String := do
  let (kind, j) ← WrittenFilter.tagged? false j
  guard (kind == "message_type")
  let f ← j.fields ["message_type"]
  f.get "message_type" Json.text

/-- A document has the three lists and no other member. -/
def ofJson? (j : Json) : Option FilterDocument := do
  if let .object members := j then
    guard (members.all fun m => listNames.contains m.1)
  let f ← j.fields listNames
  let filters := Json.list (WrittenFilter.ofJson? false Json.maxDepth)
  let begins ← f.getD "begin_block_filters" [] filters
  let ends ← f.getD "end_block_filters" [] filters
  let messageTypes ← f.getD "message_type_filters" [] (Json.list messageTypeOfJson?)
  return { begins, ends, messageTypes }

def checkMessageType (typeUrl : String) : Except String String :=
  if typeUrl.isEmpty then .error "message_type must be set" else .ok typeUrl

def listPlace (name : String) (i : Nat) : String := s!"{name} at index {i}"

/-- The filters that are meant. -/
def toFilters (d : FilterDocument) : Except String Filters := do
  let begins ←
    WrittenFilter.checkAll (listPlace "begin_block_filters") WrittenFilter.toFilter d.begins
  let ends ← WrittenFilter.checkAll (listPlace "end_block_filters") WrittenFilter.toFilter d.ends
  let messageTypes ←
    WrittenFilter.checkAll (listPlace "message_type_filters") checkMessageType d.messageTypes
  return { begins, ends, messageTypes }

end FilterDocument

namespace Filters

/-- The filters of a document in JSON text. -/
def parse (s : String) : Except ConfigError Filters :=
  match (Json.ofText? s).bind FilterDocument.ofJson? with
  | some d => d.toFilters.mapError .invalidValue
  | .none => .error .unreadableFilters

end Filters

end ChainIndex
