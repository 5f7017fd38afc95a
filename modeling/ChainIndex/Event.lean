/-
Events that a chain emits: a type and a list of attributes, in which a key may
occur more than once. `Event.attribute?` is the first value of a key. Events of
a transaction's message and events of a block are the same things and differ
only in the name under which JSON holds the type.
-/
import ChainIndex.Json.Record

namespace ChainIndex

structure Attribute where
  key : String
  value : String
  deriving DecidableEq, Inhabited

structure Event where
  eventType : String
  attributes : List Attribute
  deriving DecidableEq, Inhabited

namespace Attribute

def ofJson? (j : Json) : Option Attribute := do
  let f ← j.fields ["key", "value"]
  let key ← f.getD "key" "" Json.text
  let value ← f.getD "value" "" Json.text
  return ⟨key, value⟩

def toJson (a : Attribute) : Json :=
  .object [("key", .string a.key), ("value", .string a.value)]

end Attribute

namespace Event

/-- The first value of a key. -/
def attribute? (e : Event) (key : String) : Option String :=
  (e.attributes.find? (·.key == key)).map (·.value)

/-- The value of a key, or the empty text. -/
def attributeD (e : Event) (key : String) : String :=
  (e.attribute? key).getD ""

/-- An event as nodes write it; absent or null attributes are none. -/
def ofJson? (j : Json) : Option Event := do
  let f ← j.fields ["type", "attributes"]
  let eventType ← f.getD "type" "" Json.text
  let attributes ← f.getD "attributes" [] (Json.listOrNull Attribute.ofJson?)
  return ⟨eventType, attributes⟩

def toJson (e : Event) : Json :=
  .object [
    ("attributes", .array (e.attributes.map Attribute.toJson)),
    ("type", .string e.eventType)]

/-- An event of a message as it is stored; both parts must be there. -/
def ofMessageJson? (j : Json) : Option Event := do
  let f ← j.fields ["event_type", "attributes"]
  let eventType ← f.get "event_type" Json.text
  let attributes ← f.get "attributes" (Json.list Attribute.ofJson?)
  return ⟨eventType, attributes⟩

def toMessageJson (e : Event) : Json :=
  .object [("attributes", .array (e.attributes.map Attribute.toJson)),
    ("event_type", .string e.eventType)]

end Event

/-- Where in a block an event is emitted. -/
inductive BlockPosition where
  | beginBlock
  | endBlock
  deriving DecidableEq, Inhabited

namespace BlockPosition

def name : BlockPosition → String
  | beginBlock => "begin_block"
  | endBlock => "end_block"

/-- The end block by its name, and the begin block by any other. -/
def ofName (s : String) : BlockPosition :=
  if s = "end_block" then .endBlock else .beginBlock

end BlockPosition

/-- An event of a block with its place among the events of its position. -/
structure BlockEvent where
  position : BlockPosition
  index : Nat
  eventType : String
  attributes : List Attribute
  deriving DecidableEq, Inhabited

end ChainIndex
