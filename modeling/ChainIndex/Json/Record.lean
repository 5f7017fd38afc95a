/-
Reading typed values out of JSON. A record is an object with named fields, of
which unknown ones are skipped and none may be given twice, or an array with
the fields in order, of which the last ones may be left out. Nodes write 64-bit
integers as numbers, as decimal strings, as empty strings or as null, and empty
lists as null; `int64` and `listOrNull` read all of these.
-/
import ChainIndex.Json.Basic
import ChainIndex.Text.Numeral

namespace ChainIndex.Json

/-- The fields of a record, by name. -/
def Fields : Type := String → Option Json

/-- The only member of a key, if there is one; a key given twice is refused. -/
def onlyMember (members : List (String × Json)) (key : String) : Option (Option Json) :=
  match members.filter fun m => m.1 == key with
  | [] => some none
  | [(_, j)] => some (some j)
  | _ => none

/-- The fields of the given names, in declaration order. -/
def fields (names : List String) (j : Json) : Option Fields :=
  match j with
  | .object members => do
    let found ← names.mapM (onlyMember members)
    return fun name => ((names.zip found).lookup name).join
  | .array items =>
    if items.length ≤ names.length then
      some fun name => (names.zip items).lookup name
    else none
  | _ => none

/-- A field that has a default: the default where the field is missing. -/
def Fields.getD (f : Fields) (name : String) (default : α) (read : Json → Option α) : Option α :=
  match f name with
  | none => some default
  | some j => read j

/-- A field that must be there. -/
def Fields.get (f : Fields) (name : String) (read : Json → Option α) : Option α :=
  (f name).bind read

def text : Json → Option String
  | .string s => some s
  | _ => none

def boolean : Json → Option Bool
  | .bool b => some b
  | _ => none

def list (read : Json → Option α) : Json → Option (List α)
  | .array items => items.mapM read
  | _ => none

def listOrNull (read : Json → Option α) : Json → Option (List α)
  | .null => some []
  | j => list read j

def orNull (read : Json → Option α) : Json → Option (Option α)
  | .null => some none
  | j => (read j).map some

/-- A signed 64-bit integer in any of its spellings. -/
def int64 : Json → Option Int
  | .null => some 0
  | .number (.integer n) => if Text.fitsInt64 n then some n else none
  | .string s => if s.isEmpty then some 0 else Text.int64? s
  | _ => none

/-- An unsigned 32-bit integer in any of the spellings of `int64`. -/
def word32 (j : Json) : Option Nat := do
  let n ← int64 j
  if 0 ≤ n ∧ n ≤ Text.maxWord32 then some n.toNat else none

/-- A number without sign, point or exponent, up to a bound. -/
def natUpTo (high : Nat) : Json → Option Nat
  | .number (.integer n) => if 0 ≤ n ∧ n ≤ high then some n.toNat else none
  | _ => none

end ChainIndex.Json
