/-
Reading JSON text. `Json.ofText?` accepts the grammar of RFC 8259 and nothing
more: no comments, no trailing commas, no text behind the value. It keeps
repeated members and marks unreadable parts; `Json.parse?` is the plain value
of a text.
-/
import ChainIndex.Json.Basic
import ChainIndex.Text.Numeral

namespace ChainIndex.Json

namespace Reader

def isSpace (c : Char) : Bool :=
  c == ' ' || c == '\n' || c == '\t' || c == '\r'

def skipSpace (cs : List Char) : List Char :=
  cs.dropWhile isSpace

def hexValue? (c : Char) : Option Nat :=
  if '0' ≤ c ∧ c ≤ '9' then some (c.toNat - '0'.toNat)
  else if 'a' ≤ c ∧ c ≤ 'f' then some (c.toNat - 'a'.toNat + 10)
  else if 'A' ≤ c ∧ c ≤ 'F' then some (c.toNat - 'A'.toNat + 10)
  else none

/-- The character that a one-letter escape stands for. -/
def shortEscape? : Char → Option Char
  | '"' => some '"'
  | '\\' => some '\\'
  | '/' => some '/'
  | 'b' => some '\x08'
  | 'f' => some '\x0c'
  | 'n' => some '\n'
  | 'r' => some '\r'
  | 't' => some '\t'
  | _ => none

/-- The code units up to the closing quote and the text behind it. An escaped
code unit may be half of a surrogate pair; all other units are characters. -/
def stringUnits : List Char → Option (List Nat × List Char)
  | '"' :: rest => some ([], rest)
  | '\\' :: 'u' :: a :: b :: c :: d :: rest => do
    let a ← hexValue? a
    let b ← hexValue? b
    let c ← hexValue? c
    let d ← hexValue? d
    let (units, rest) ← stringUnits rest
    return ((((a * 16 + b) * 16 + c) * 16 + d) :: units, rest)
  | '\\' :: c :: rest => do
    let c ← shortEscape? c
    let (units, rest) ← stringUnits rest
    return (c.toNat :: units, rest)
  | c :: rest =>
    if c.toNat < 0x20 then none
    else do
      let (units, rest) ← stringUnits rest
      return (c.toNat :: units, rest)
  | [] => none

def isHighSurrogate (u : Nat) : Bool := 0xD800 ≤ u && u ≤ 0xDBFF
def isLowSurrogate (u : Nat) : Bool := 0xDC00 ≤ u && u ≤ 0xDFFF

/-- Joins each surrogate pair into its character; a surrogate that is not part
of a pair spoils the text. -/
def joinUnits : List Nat → Option (List Char)
  | [] => some []
  | u :: v :: rest =>
    if isHighSurrogate u then
      if isLowSurrogate v then
        (joinUnits rest).map (Char.ofNat (0x10000 + (u - 0xD800) * 0x400 + (v - 0xDC00)) :: ·)
      else none
    else if isLowSurrogate u then none
    else (joinUnits (v :: rest)).map (Char.ofNat u :: ·)
  | [u] => if isHighSurrogate u || isLowSurrogate u then none else some [Char.ofNat u]

/-- The number of decimal digits of a positive number. -/
def digitCount (n : Nat) : Nat :=
  (Nat.toDigits 10 n).length

/-- Whether a decimal rounds to a finite binary64 number: it is below the
middle between the largest one and the next power of two. -/
def isFinite (digits : Nat) (exponent : Int) : Bool :=
  let bound : Nat := Nat.pow 2 1024 - Nat.pow 2 970
  let magnitude : Int := digitCount digits + exponent
  digits == 0 || magnitude ≤ 308 ||
    (magnitude ≤ 310 &&
      if 0 ≤ exponent then digits * Nat.pow 10 exponent.toNat < bound
      else digits < bound * Nat.pow 10 (-exponent).toNat)

/-- The value of a number without point and exponent: minus zero and what has
more than 64 bits are fractions. -/
def ofDigits (negative : Bool) (n : Nat) : Json :=
  if negative then
    if n ≠ 0 ∧ n ≤ Text.maxInt64 + 1 then .number (.integer (-n))
    else if isFinite n 0 then .number (.fraction true n 0)
    else .unreadable
  else if n ≤ Text.maxWord64 then .number (.integer n)
  else if isFinite n 0 then .number (.fraction false n 0)
  else .unreadable

def ofDecimal (negative : Bool) (digits : Nat) (exponent : Int) : Json :=
  if isFinite digits exponent then .number (.fraction negative digits exponent) else .unreadable

/-- One digit or more, and what follows. -/
def digitRun (cs : List Char) : Option (List Char × List Char) :=
  match cs.takeWhile Text.isDigit with
  | [] => none
  | run => some (run, cs.dropWhile Text.isDigit)

/-- The exponent part of a number: nothing, or a letter e with a signed run of
digits. -/
def exponentPart (cs : List Char) : Option (Option Int × List Char) :=
  match cs with
  | c :: rest =>
    if c = 'e' ∨ c = 'E' then
      match rest with
      | '-' :: rest =>
        (digitRun rest).map fun (run, rest) => (some (-(Text.ofDigits run : Int)), rest)
      | '+' :: rest => (digitRun rest).map fun (run, rest) => (some (Text.ofDigits run : Int), rest)
      | rest => (digitRun rest).map fun (run, rest) => (some (Text.ofDigits run : Int), rest)
    else some (none, cs)
  | [] => some (none, cs)

/-- A number behind its minus sign: no zero before another digit, a digit on
both sides of a point. -/
def magnitude (negative : Bool) (cs : List Char) : Option (Json × List Char) := do
  let (whole, rest) ← digitRun cs
  guard (whole.head? ≠ some '0' ∨ whole.length = 1)
  let (decimals, rest) ← match rest with
    | '.' :: rest => (digitRun rest).map fun (run, rest) => (some run, rest)
    | _ => some (none, rest)
  let (exponent, rest) ← exponentPart rest
  return match decimals, exponent with
    | none, none => (ofDigits negative (Text.ofDigits whole), rest)
    | _, _ =>
      let decimals := decimals.getD []
      (ofDecimal negative (Text.ofDigits (whole ++ decimals))
        (exponent.getD 0 - decimals.length), rest)

def number (cs : List Char) : Option (Json × List Char) :=
  match cs with
  | '-' :: rest => magnitude true rest
  | _ => magnitude false cs

/-- A string behind its opening quote. -/
def stringBody (cs : List Char) : Option (Option String × List Char) :=
  (stringUnits cs).map fun (units, rest) => ((joinUnits units).map String.ofList, rest)

/-- An array or object stands at level `depth`; deeper ones cannot be read. -/
def atDepth (depth : Nat) (j : Json) : Json :=
  if depth ≤ maxDepth then j else .unreadable

mutual
/-- A value at level `depth` and the text behind it. The first argument bounds
the number of values and items begun, and two per character are enough. -/
def value : Nat → Nat → List Char → Option (Json × List Char)
  | 0, _, _ => none
  | fuel + 1, depth, cs =>
    match cs with
    | 'n' :: 'u' :: 'l' :: 'l' :: rest => some (.null, rest)
    | 't' :: 'r' :: 'u' :: 'e' :: rest => some (.bool true, rest)
    | 'f' :: 'a' :: 'l' :: 's' :: 'e' :: rest => some (.bool false, rest)
    | '"' :: rest => (stringBody rest).map fun (s, rest) => (s.elim .unreadable .string, rest)
    | '[' :: rest =>
      match skipSpace rest with
      | ']' :: rest => some (atDepth depth (.array []), rest)
      | rest =>
        (items fuel (depth + 1) rest).map fun (js, rest) => (atDepth depth (.array js), rest)
    | '\x7b' :: rest =>
      match skipSpace rest with
      | '\x7d' :: rest => some (atDepth depth (.object []), rest)
      | rest => (members fuel (depth + 1) rest).map fun (ms, rest) =>
        (ms.elim .unreadable fun ms => atDepth depth (.object ms), rest)
    | _ => number cs

/-- The items of an array up to its closing bracket; the text begins with the
first of them. -/
def items : Nat → Nat → List Char → Option (List Json × List Char)
  | 0, _, _ => none
  | fuel + 1, depth, cs => do
    let (j, rest) ← value fuel depth cs
    match skipSpace rest with
    | ']' :: rest => return ([j], rest)
    | ',' :: rest => do
      let (js, rest) ← items fuel depth (skipSpace rest)
      return (j :: js, rest)
    | _ => none

/-- The members of an object up to its closing brace; nothing in place of the
members if a key is spoilt. -/
def members : Nat → Nat → List Char → Option (Option (List (String × Json)) × List Char)
  | 0, _, _ => none
  | fuel + 1, depth, cs =>
    match cs with
    | '"' :: rest => do
      let (key, rest) ← stringBody rest
      match skipSpace rest with
      | ':' :: rest => do
        let (j, rest) ← value fuel depth (skipSpace rest)
        match skipSpace rest with
        | '\x7d' :: rest => return (key.map fun k => [(k, j)], rest)
        | ',' :: rest => do
          let (ms, rest) ← members fuel depth (skipSpace rest)
          return ((do return (← key, j) :: (← ms)), rest)
        | _ => none
      | _ => none
    | _ => none
end

end Reader

/-- The value of a text with nothing but white space around it. -/
def ofChars? (cs : List Char) : Option Json :=
  match Reader.value (2 * cs.length + 2) 1 (Reader.skipSpace cs) with
  | some (j, rest) => if (Reader.skipSpace rest).isEmpty then some j else none
  | none => none

def ofText? (s : String) : Option Json :=
  ofChars? s.toList

/-- The plain value of a text. -/
def parse? (s : String) : Option Json :=
  (ofText? s).bind canonical

end ChainIndex.Json
