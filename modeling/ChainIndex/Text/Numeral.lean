/-
Whole numbers in decimal digits. A numeral is one or more of the digits 0 to 9
behind at most one sign; leading zeros are allowed, blanks and separators are
not. The range is checked digit by digit: a numeral whose digits leave the
range before its first wrong character is out of range, not misspelt.
-/

namespace ChainIndex.Text

/-- Why a text is no numeral of the wanted range. -/
inductive NumeralError where
  | empty
  | invalidDigit
  | tooLarge
  | tooSmall
  deriving DecidableEq

namespace NumeralError

def message : NumeralError → String
  | empty => "cannot parse integer from empty string"
  | invalidDigit => "invalid digit found in string"
  | tooLarge => "number too large to fit in target type"
  | tooSmall => "number too small to fit in target type"

end NumeralError

def isDigit (c : Char) : Bool :=
  '0' ≤ c && c ≤ '9'

def digitValue (c : Char) : Nat :=
  c.toNat - '0'.toNat

/-- The number that a list of digits writes, the most significant first. -/
def ofDigits (cs : List Char) : Nat :=
  cs.foldl (fun n c => 10 * n + digitValue c) 0

/-- A run of digits whose value is at most `limit`; `complaint` is what is said
about a larger value. -/
def digitsUpTo (limit : Nat) (complaint : NumeralError) (cs : List Char) :
    Except NumeralError Nat :=
  let run := cs.takeWhile isDigit
  if limit < ofDigits run then .error complaint
  else if run.length < cs.length then .error .invalidDigit
  else .ok (ofDigits run)

/-- A signed numeral from `-low` to `high`. A lone sign counts as a wrong
character, so that only the empty text is empty. -/
def signed? (low high : Nat) (cs : List Char) : Except NumeralError Int :=
  match cs with
  | [] => .error .empty
  | ['+'] | ['-'] => .error .invalidDigit
  | '+' :: rest => (digitsUpTo high .tooLarge rest).map Int.ofNat
  | '-' :: rest => (digitsUpTo low .tooSmall rest).map fun n => -Int.ofNat n
  | _ => (digitsUpTo high .tooLarge cs).map Int.ofNat

/-- An unsigned numeral up to `high`: a plus sign may stand before it, a minus
sign is a wrong character. -/
def unsigned? (high : Nat) (cs : List Char) : Except NumeralError Nat :=
  match cs with
  | [] => .error .empty
  | ['+'] => .error .invalidDigit
  | '+' :: rest => digitsUpTo high .tooLarge rest
  | _ => digitsUpTo high .tooLarge cs

def maxInt64 : Nat := 0x7fffffffffffffff
def maxInt32 : Nat := 0x7fffffff
def maxWord64 : Nat := 0xffffffffffffffff
def maxWord32 : Nat := 0xffffffff

/-- Whether an integer is one of the signed 64-bit numbers. -/
def fitsInt64 (n : Int) : Bool :=
  -(maxInt64 + 1 : Int) ≤ n && n ≤ maxInt64

def readInt64 (s : String) : Except NumeralError Int :=
  signed? (maxInt64 + 1) maxInt64 s.toList

def int64? (s : String) : Option Int :=
  (readInt64 s).toOption

def word64? (s : String) : Option Nat :=
  (unsigned? maxWord64 s.toList).toOption

def word32? (s : String) : Option Nat :=
  (unsigned? maxWord32 s.toList).toOption

@[simp] theorem ofDigits_nil : ofDigits [] = 0 := rfl

end ChainIndex.Text
