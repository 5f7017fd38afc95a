/-
Members of plain values, for readers that forgive: a member that is missing or
of another type counts as its default. And the other way, objects with their
members sorted, and integers in a form that no reader of binary64 numbers can
lose: those beyond 2^53 - 1 are written as texts.
-/
import ChainIndex.Json.Basic
import ChainIndex.Text.Numeral

namespace ChainIndex.Json

/-! Reading -/

/-- A member, or null. -/
def member (j : Json) (key : String) : Json := (j.get? key).getD .null

def text? (j : Json) (key : String) : Option String :=
  match j.get? key with
  | some (.string s) => some s
  | _ => none

def textD (j : Json) (key default : String) : String := (j.text? key).getD default

def int? (j : Json) (key : String) : Option Int :=
  match j.get? key with
  | some (.number (.integer n)) => if Text.fitsInt64 n then some n else none
  | _ => none

def intD (j : Json) (key : String) (default : Int) : Int := (j.int? key).getD default

def intAt (j : Json) (key : String) : Int := j.intD key 0

def natD (j : Json) (key : String) (default : Nat) : Nat :=
  match j.get? key with
  | some (.number (.integer n)) => if 0 ≤ n then n.toNat else default
  | _ => default

def natAt (j : Json) (key : String) : Nat := j.natD key 0

def flagD (j : Json) (key : String) (default : Bool) : Bool :=
  match j.get? key with
  | some (.bool b) => b
  | _ => default

def flagAt (j : Json) (key : String) : Bool := j.flagD key false

/-- The texts of an array member; an item that is no text is empty. -/
def textsAt (j : Json) (key : String) : List String :=
  (j.itemsAt key).map fun
    | .string s => s
    | _ => ""

/-- The items of an array member, all of which must be readable. -/
def allAt (j : Json) (key : String) (read : Json → Option α) : Option (List α) :=
  (j.itemsAt key).mapM read

/-! Writing -/

/-- The largest integer that binary64 numbers keep apart from its neighbours. -/
def maxSafe : Nat := 0x1fffffffffffff

/-- An integer that no reader loses. -/
def ofSafe (n : Int) : Json :=
  if n.natAbs ≤ maxSafe then .ofInt n else .string (toString n)

mutual
/-- A value in which no reader loses an integer. -/
def safe : Json → Json
  | .number (.integer n) => ofSafe n
  | .array items => .array (safeItems items)
  | .object members => .object (safeMembers members)
  | j => j

def safeItems : List Json → List Json
  | [] => []
  | j :: rest => safe j :: safeItems rest

def safeMembers : List (String × Json) → List (String × Json)
  | [] => []
  | (k, j) :: rest => (k, safe j) :: safeMembers rest
end

/-- An object with these members. -/
def ofMembers (members : List (String × Json)) : Json := .object (sortMembers members)

def ofList (write : α → Json) (xs : List α) : Json := .array (xs.map write)

def ofTexts (xs : List String) : Json := ofList .string xs

/-- A value, or null. -/
def ofOption (write : α → Json) : Option α → Json
  | some a => write a
  | none => .null

end ChainIndex.Json
