/-
Points in time. An instant counts seconds from 1970-01-01T00:00:00Z and the
nanoseconds within the second; a leap second is the second before it with a
thousand million nanoseconds more. Instants are written in UTC with the fewest
of 0, 3, 6 or 9 decimal places that lose nothing.

There are two readers: `rfc3339?` for the strict form, in which a blank may
stand for the letter T, and `lenient?`, in which fields may be shorter than
their width and blanks may stand around them.
-/
import ChainIndex.Text.Blank
import ChainIndex.Text.Numeral

namespace ChainIndex

structure Instant where
  seconds : Int
  nanos : Nat
  deriving DecidableEq, Inhabited

namespace Instant

def epoch : Instant := ⟨0, 0⟩

def nanosPerSecond : Nat := 1000000000

/-! The calendar -/

def isLeapYear (year : Int) : Bool :=
  year % 4 == 0 && (year % 100 != 0 || year % 400 == 0)

def daysInMonth (year : Int) (month : Nat) : Nat :=
  match month with
  | 2 => if isLeapYear year then 29 else 28
  | 4 | 6 | 9 | 11 => 30
  | _ => 31

/-- Days from 1970-01-01 to a date; years begin with March, so that the leap
day is the last of its year. -/
def daysFromDate (year : Int) (month day : Nat) : Int :=
  let y := if month ≤ 2 then year - 1 else year
  let m := (month + 9) % 12
  let era := y / 400
  let yearOfEra := y % 400
  let dayOfYear : Int := (153 * m + 2) / 5 + day - 1
  let dayOfEra := yearOfEra * 365 + yearOfEra / 4 - yearOfEra / 100 + dayOfYear
  era * 146097 + dayOfEra - 719468

/-- Year, month and day of a number of days from 1970-01-01. -/
def dateFromDays (days : Int) : Int × Nat × Nat :=
  let z := days + 719468
  let era := z / 146097
  let dayOfEra := z % 146097
  let yearOfEra := (dayOfEra - dayOfEra / 1460 + dayOfEra / 36524 - dayOfEra / 146096) / 365
  let dayOfYear := dayOfEra - (365 * yearOfEra + yearOfEra / 4 - yearOfEra / 100)
  let m := (5 * dayOfYear + 2) / 153
  let day := dayOfYear - (153 * m + 2) / 5 + 1
  let month := if m < 10 then m + 3 else m - 9
  let year := yearOfEra + era * 400 + (if month ≤ 2 then 1 else 0)
  (year, month.toNat, day.toNat)

def minYear : Int := -262143
def maxYear : Int := 262142

/-- The instant of a date, a time of day and an offset from UTC in seconds; the
second 60 is a leap second. -/
def ofFields? (year : Int) (month day hour minute second nanos : Nat) (offset : Int) :
    Option Instant :=
  if minYear ≤ year ∧ year ≤ maxYear ∧ 1 ≤ month ∧ month ≤ 12 ∧ 1 ≤ day ∧
      day ≤ daysInMonth year month ∧ hour ≤ 23 ∧ minute ≤ 59 ∧ second ≤ 60 then
    let leap := second = 60
    let second := if leap then 59 else second
    let nanos := if leap then nanos + nanosPerSecond else nanos
    some ⟨daysFromDate year month day * 86400 + hour * 3600 + minute * 60 + second - offset, nanos⟩
  else none

/-! Reading -/

/-- A run of `least` to `most` digits; longer runs are cut. -/
def digitsBetween (least most : Nat) (cs : List Char) : Option (Nat × List Char) :=
  let run := (cs.take most).takeWhile Text.isDigit
  if run.length < least then none else some (Text.ofDigits run, cs.drop run.length)

def expect (c : Char) : List Char → Option (List Char)
  | d :: rest => if c = d then some rest else none
  | [] => none

/-- The fraction of a second behind its point: digits after the ninth are
dropped, and a text without a point has no fraction. -/
def fraction (cs : List Char) : Option (Nat × List Char) :=
  match cs with
  | '.' :: rest => do
    let run := (rest.take 9).takeWhile Text.isDigit
    guard (!run.isEmpty)
    return (Text.ofDigits run * Nat.pow 10 (9 - run.length), rest.dropWhile Text.isDigit)
  | _ => some (0, cs)

/-- The letter Z, or a sign, two digits of hours, what `separator` takes, and
two digits of minutes below 60; in seconds. -/
def utcOffset (separator : List Char → Option (List Char)) (cs : List Char) :
    Option (Int × List Char) :=
  match cs with
  | 'Z' :: rest | 'z' :: rest => some (0, rest)
  | sign :: rest => do
    guard (sign = '+' ∨ sign = '-' ∨ sign = '−')
    let (hours, rest) ← digitsBetween 2 2 rest
    let rest ← separator rest
    let (minutes, rest) ← digitsBetween 2 2 rest
    guard (minutes < 60)
    let seconds : Int := hours * 3600 + minutes * 60
    return (if sign = '+' then seconds else -seconds, rest)
  | [] => none

def isDateEnd (c : Char) : Bool := c == 'T' || c == 't' || c == ' '

def rfc3339Chars? (cs : List Char) : Option Instant := do
  let (year, cs) ← digitsBetween 4 4 cs
  let cs ← expect '-' cs
  let (month, cs) ← digitsBetween 2 2 cs
  let cs ← expect '-' cs
  let (day, cs) ← digitsBetween 2 2 cs
  guard (cs.head?.any isDateEnd)
  let (hour, cs) ← digitsBetween 2 2 (cs.drop 1)
  let cs ← expect ':' cs
  let (minute, cs) ← digitsBetween 2 2 cs
  let cs ← expect ':' cs
  let (second, cs) ← digitsBetween 2 2 cs
  let (nanos, cs) ← fraction cs
  let (offset, cs) ← utcOffset (expect ':') cs
  guard (offset.natAbs < 86400)
  guard cs.isEmpty
  ofFields? year month day hour minute second nanos offset

def rfc3339? (s : String) : Option Instant :=
  rfc3339Chars? s.toList

def skipBlanks (cs : List Char) : List Char :=
  cs.dropWhile Text.isBlank

/-- A field of at most two digits with blanks before it. -/
def shortField (cs : List Char) : Option (Nat × List Char) :=
  digitsBetween 1 2 (skipBlanks cs)

/-- A year of at most four digits, or of any number of digits behind a sign. -/
def yearField (cs : List Char) : Option (Int × List Char) :=
  match skipBlanks cs with
  | '-' :: rest => (digitsBetween 1 rest.length rest).map fun (n, rest) => (-(n : Int), rest)
  | '+' :: rest => (digitsBetween 1 rest.length rest).map fun (n, rest) => ((n : Int), rest)
  | cs => (digitsBetween 1 4 cs).map fun (n, rest) => ((n : Int), rest)

def offsetField (cs : List Char) : Option (Int × List Char) :=
  if (cs.take 3).map Char.toUpper = ['U', 'T', 'C'] then some (0, cs.drop 3)
  else utcOffset (fun cs => some (cs.dropWhile fun c => c == ':' || Text.isBlank c)) cs

def lenientChars? (cs : List Char) : Option Instant := do
  let (year, cs) ← yearField cs
  let cs ← expect '-' (skipBlanks cs)
  let (month, cs) ← shortField cs
  let cs ← expect '-' (skipBlanks cs)
  let (day, cs) ← shortField cs
  guard (cs.head?.any isDateEnd)
  let (hour, cs) ← shortField (cs.drop 1)
  let cs ← expect ':' (skipBlanks cs)
  let (minute, cs) ← shortField cs
  let cs ← expect ':' (skipBlanks cs)
  let (second, cs) ← shortField cs
  let (nanos, cs) ← fraction cs
  let (offset, cs) ← offsetField (skipBlanks cs)
  guard (offset.natAbs < 86400)
  guard (skipBlanks cs).isEmpty
  ofFields? year month day hour minute second nanos offset

def lenient? (s : String) : Option Instant :=
  lenientChars? s.toList

/-! Writing -/

/-- Decimal digits with zeros before them up to a width. -/
def padded (width n : Nat) : String :=
  let digits := toString n
  String.ofList (List.replicate (width - digits.length) '0') ++ digits

def renderYear (year : Int) : String :=
  if 0 ≤ year ∧ year ≤ 9999 then padded 4 year.toNat
  else (if year < 0 then "-" else "+") ++ padded 4 year.natAbs

def renderFraction (nanos : Nat) : String :=
  if nanos = 0 then ""
  else if nanos % 1000000 = 0 then "." ++ padded 3 (nanos / 1000000)
  else if nanos % 1000 = 0 then "." ++ padded 6 (nanos / 1000)
  else "." ++ padded 9 nanos

def render (t : Instant) : String :=
  let days := t.seconds / 86400
  let second := (t.seconds % 86400).toNat
  let (year, month, day) := dateFromDays days
  let leap := nanosPerSecond ≤ t.nanos
  let shown := if leap then second % 60 + 1 else second % 60
  let nanos := if leap then t.nanos - nanosPerSecond else t.nanos
  renderYear year ++ "-" ++ padded 2 month ++ "-" ++ padded 2 day ++ "T" ++
    padded 2 (second / 3600) ++ ":" ++ padded 2 (second / 60 % 60) ++ ":" ++ padded 2 shown ++
    renderFraction nanos ++ "Z"

end Instant

end ChainIndex
