/-
JSON values. An object keeps its members in the order and as often as they were
written, since a record that is read from text refuses a field given twice;
`canonical` is the plain value, with every key once, the last member of a key
winning, and keys in ascending order.

A text may hold parts that are well-formed but that no reader may look into: a
number beyond the range of binary64, a lone surrogate, a nesting of more than
`Json.maxDepth` levels. Such a part is the value `unreadable`. It does no harm
in a member that is skipped, and `canonical` refuses it.
-/

namespace ChainIndex

/-- A number is an integer of at most 64 bits, signed or unsigned, or else a
decimal fraction `± digits · 10 ^ exponent`; `5.0` is a fraction. -/
inductive Json.Number where
  | integer (n : Int)
  | fraction (negative : Bool) (digits : Nat) (exponent : Int)
  deriving DecidableEq, Inhabited

inductive Json where
  | null
  | bool (b : Bool)
  | number (n : Json.Number)
  | string (s : String)
  | array (items : List Json)
  | object (members : List (String × Json))
  | unreadable
  deriving Inhabited, BEq

namespace Json

/-- The deepest level at which an array or object can still be read. -/
def maxDepth : Nat := 127

def ofInt (n : Int) : Json := .number (.integer n)

def ofNat (n : Nat) : Json := .number (.integer n)

/-- Puts a member into a list that is sorted by key; the new member replaces
one of the same key. -/
def putMember (k : String) (v : Json) : List (String × Json) → List (String × Json)
  | [] => [(k, v)]
  | (k', v') :: rest =>
    if k = k' then (k, v) :: rest
    else if k < k' then (k, v) :: (k', v') :: rest
    else (k', v') :: putMember k v rest

/-- Members in ascending order of their keys, each key once, the last one. -/
def sortMembers (members : List (String × Json)) : List (String × Json) :=
  members.foldl (fun sorted m => putMember m.1 m.2 sorted) []

mutual
/-- The plain value, or nothing if a part of it is unreadable. -/
def canonical : Json → Option Json
  | .array items => (canonicalItems items).map .array
  | .object members => (canonicalMembers members).map fun ms => .object (sortMembers ms)
  | .unreadable => none
  | j => some j

def canonicalItems : List Json → Option (List Json)
  | [] => some []
  | j :: rest => do
    let j ← canonical j
    let rest ← canonicalItems rest
    return j :: rest

def canonicalMembers : List (String × Json) → Option (List (String × Json))
  | [] => some []
  | (k, j) :: rest => do
    let j ← canonical j
    let rest ← canonicalMembers rest
    return (k, j) :: rest
end

/-- The member of a key in a plain value; nothing where there is no such
member or no object. -/
def get? (j : Json) (key : String) : Option Json :=
  match j with
  | .object members => members.lookup key
  | _ => none

/-- The text of a member, empty where there is none. -/
def textAt (j : Json) (key : String) : String :=
  match j.get? key with
  | some (.string s) => s
  | _ => ""

/-- The items of an array member, none where there is no array. -/
def itemsAt (j : Json) (key : String) : List Json :=
  match j.get? key with
  | some (.array items) => items
  | _ => []

end Json

end ChainIndex
