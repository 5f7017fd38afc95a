/-
Protobuf messages as lists of fields. A field is a number with a value of one
of the wire types; a group is read only to be skipped, so its content is not
kept. `fields?` reads a whole message, nested as deep as its first argument
allows, and `write` writes one.
-/
import ChainIndex.Wire.Varint

namespace ChainIndex.Wire

inductive Value where
  | varint (n : Nat)
  | fixed64 (bytes : Bytes)
  | bytes (content : Bytes)
  | group
  | fixed32 (bytes : Bytes)
  deriving DecidableEq

structure Field where
  number : Nat
  value : Value
  deriving DecidableEq

/-- How deep messages and groups may be nested. -/
def maxNesting : Nat := 100

/-- The number and the wire type in front of a field: a key of at most 32 bits
whose number is not zero. -/
def key? (bs : Bytes) : Option (Nat × Nat × Bytes) := do
  let (key, rest) ← Varint.read? bs
  if key < 0x100000000 ∧ 8 ≤ key then some (key / 8, key % 8, rest) else none

/-- The first bytes, if there are so many. -/
def take? (n : Nat) (bs : Bytes) : Option (Bytes × Bytes) :=
  if n ≤ bs.length then some (bs.take n, bs.drop n) else none

/-- A value that is not a group. -/
def plainValue? (wireType : Nat) (bs : Bytes) : Option (Value × Bytes) :=
  match wireType with
  | 0 => (Varint.read? bs).map fun (n, rest) => (.varint n, rest)
  | 1 => (take? 8 bs).map fun (x, rest) => (.fixed64 x, rest)
  | 2 => do
    let (n, rest) ← Varint.read? bs
    let (content, rest) ← take? n rest
    return (.bytes content, rest)
  | 5 => (take? 4 bs).map fun (x, rest) => (.fixed32 x, rest)
  | _ => none

/-- Skips the fields of a group up to the end mark of its number. The first
argument bounds the fields that are begun, the second the nesting. -/
def skipGroup : Nat → Nat → Nat → Bytes → Option Bytes
  | 0, _, _, _ => none
  | fuel + 1, nesting, number, bs => do
    let (inner, wireType, rest) ← key? bs
    if wireType = 4 then
      if inner = number then some rest else none
    else if nesting = 0 then none
    else if wireType = 3 then do
      let rest ← skipGroup fuel (nesting - 1) inner rest
      skipGroup fuel nesting number rest
    else do
      let (_, rest) ← plainValue? wireType rest
      skipGroup fuel nesting number rest

/-- The next field of a message that may nest so deep. -/
def field? (nesting : Nat) (bs : Bytes) : Option (Field × Bytes) := do
  let (number, wireType, rest) ← key? bs
  if wireType = 3 then
    if nesting = 0 then none
    else do
      let rest ← skipGroup rest.length (nesting - 1) number rest
      return (⟨number, .group⟩, rest)
  else do
    let (value, rest) ← plainValue? wireType rest
    return (⟨number, value⟩, rest)

/-- Up to `fuel` fields, and nothing behind them. -/
def fieldsUpTo : Nat → Nat → Bytes → Option (List Field)
  | _, _, [] => some []
  | 0, _, _ => none
  | fuel + 1, nesting, bs => do
    let (f, rest) ← field? nesting bs
    let fs ← fieldsUpTo fuel nesting rest
    return f :: fs

/-- All fields of a message; each takes a byte at least. -/
def fields? (nesting : Nat) (bs : Bytes) : Option (List Field) :=
  fieldsUpTo bs.length nesting bs

/-! Reading one field of a record out of the list. All occurrences must have
the right wire type; of several the last counts. -/

/-- The values of a field number, in order. -/
def valuesOf (number : Nat) (fs : List Field) : List Value :=
  (fs.filter (·.number == number)).map (·.value)

def Value.bytes? : Value → Option Bytes
  | .bytes content => some content
  | _ => none

def Value.varint? : Value → Option Nat
  | .varint n => some n
  | _ => none

def Value.text? (v : Value) : Option String :=
  v.bytes?.bind Bytes.toText?

/-- All occurrences, read in one way. -/
def repeated (read : Value → Option α) (number : Nat) (fs : List Field) : Option (List α) :=
  (valuesOf number fs).mapM read

/-- The last occurrence, or the default. -/
def single (read : Value → Option α) (default : α) (number : Nat) (fs : List Field) : Option α :=
  (repeated read number fs).map fun values => values.getLast?.getD default

def text (number : Nat) (fs : List Field) : Option String :=
  single Value.text? "" number fs

def byteString (number : Nat) (fs : List Field) : Option Bytes :=
  single Value.bytes? [] number fs

def word64 (number : Nat) (fs : List Field) : Option Nat :=
  single Value.varint? 0 number fs

/-- The records of a repeated field. -/
def records (nesting : Nat) (read : Nat → List Field → Option α) (number : Nat)
    (fs : List Field) : Option (List α) := do
  if nesting = 0 ∧ (valuesOf number fs) ≠ [] then none
  else
    let contents ← repeated Value.bytes? number fs
    contents.mapM fun content => do
      let inner ← fields? (nesting - 1) content
      read (nesting - 1) inner

/-- The record of a field that may be missing; the fields of several
occurrences count together. -/
def record? (nesting : Nat) (read : Nat → List Field → Option α) (number : Nat)
    (fs : List Field) : Option (Option α) := do
  if nesting = 0 ∧ (valuesOf number fs) ≠ [] then none
  else
    let contents ← repeated Value.bytes? number fs
    let inner ← contents.mapM (fields? (nesting - 1))
    if inner.isEmpty then some none
    else (read (nesting - 1) inner.flatten).map some

/-- A record that is a whole message. -/
def message? (read : Nat → List Field → Option α) (bs : Bytes) : Option α := do
  let fs ← fields? maxNesting bs
  read maxNesting fs

/-! Writing -/

def writeKey (number wireType : Nat) : Bytes :=
  Varint.write (8 * number + wireType)

def writeField (f : Field) : Bytes :=
  match f.value with
  | .varint n => writeKey f.number 0 ++ Varint.write n
  | .fixed64 x => writeKey f.number 1 ++ x
  | .bytes content => writeKey f.number 2 ++ Varint.write content.length ++ content
  | .group => writeKey f.number 3 ++ writeKey f.number 4
  | .fixed32 x => writeKey f.number 5 ++ x

def write (fs : List Field) : Bytes :=
  fs.flatMap writeField

/-- A number that is written unless it is zero. -/
def ofWord (number n : Nat) : List Field :=
  if n = 0 then [] else [⟨number, .varint n⟩]

/-- A byte string that is written unless it is empty. -/
def ofBytes (number : Nat) (content : Bytes) : List Field :=
  if content.isEmpty then [] else [⟨number, .bytes content⟩]

def ofText (number : Nat) (s : String) : List Field :=
  ofBytes number (Bytes.ofText s)

/-- A nested message, written even if it is empty. -/
def ofRecord (number : Nat) (fs : List Field) : Field :=
  ⟨number, .bytes (write fs)⟩

end ChainIndex.Wire
