/-
The time between two rounds of queries, given in seconds as a decimal number
with an optional sign, point and exponent. The number is rounded to 53 binary
digits and then to whole nanoseconds. A number that is negative, infinite or not
a number at all is no time.
-/
import ChainIndex.Span
import ChainIndex.Text.Numeral

namespace ChainIndex.Throttle

/-- Beyond this many decimal places a number is zero or infinite. -/
def farExponent : Int := 400

/-- The span of `digits * 10 ^ exponent` seconds. -/
def ofDecimal (digits : Nat) (exponent : Int) : Span :=
  let magnitude : Int := exponent + (Nat.toDigits 10 digits).length
  if digits = 0 ∨ magnitude < -farExponent ∨ farExponent < magnitude then .zero
  else (Span.ofBinary64? (.ofDecimal digits exponent)).getD .zero

/-- The exponent behind its mark: digits after at most one sign. -/
def exponentOf? (cs : List Char) : Option Int :=
  match cs with
  | '+' :: rest => digits? rest
  | '-' :: rest => (digits? rest).map fun n => -n
  | _ => digits? cs
where
  digits? (cs : List Char) : Option Int :=
    if cs.isEmpty ∨ !cs.all Text.isDigit then none else some (Text.ofDigits cs)

/-- A number without a sign: at least one digit before or behind the point. -/
def unsigned? (cs : List Char) : Option (Nat × Int) := do
  let whole := cs.takeWhile Text.isDigit
  let rest := cs.dropWhile Text.isDigit
  let (places, rest) := match rest with
    | '.' :: rest => (rest.takeWhile Text.isDigit, rest.dropWhile Text.isDigit)
    | _ => ([], rest)
  guard (!(whole.isEmpty && places.isEmpty))
  let exponent ← match rest with
    | [] => some 0
    | c :: rest => if c = 'e' ∨ c = 'E' then exponentOf? rest else none
  return (Text.ofDigits (whole ++ places), exponent - places.length)

/-- The span that a text gives; anything but a positive number gives none. -/
def ofText (s : String) : Span :=
  let cs := match s.toList with
    | '+' :: rest => rest
    | cs => cs
  match unsigned? cs with
  | some (digits, exponent) => ofDecimal digits exponent
  | none => .zero

end ChainIndex.Throttle
