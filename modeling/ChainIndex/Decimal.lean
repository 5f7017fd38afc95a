/-
Exact decimal numbers of any size. A decimal is `digits / 10 ^ scale`; the
scale is kept as it was written, so `1.50` and `1.5` are two decimals of one
value, and a negative scale stands for trailing zeros. Sums take the larger
scale and lose nothing; `truncate` drops the fraction towards zero.
-/
import ChainIndex.Text.Numeral

namespace ChainIndex

structure Decimal where
  digits : Int
  scale : Int
  deriving DecidableEq, Inhabited

/-- Why a text is no decimal. -/
inductive DecimalError where
  | empty
  | numeral (cause : Text.NumeralError)
  deriving DecidableEq

def DecimalError.message : DecimalError → String
  | empty => "Failed to parse empty string"
  | numeral cause => cause.message

namespace Decimal

def zero : Decimal := ⟨0, 0⟩

def one : Decimal := ⟨1, 0⟩

def ofNat (n : Nat) : Decimal := ⟨n, 0⟩

def isZero (d : Decimal) : Bool := d.digits == 0

/-- The digits at a scale that is not smaller. -/
def digitsAt (d : Decimal) (scale : Int) : Int :=
  d.digits * Nat.pow 10 (scale - d.scale).toNat

def add (d e : Decimal) : Decimal :=
  let scale := max d.scale e.scale
  ⟨d.digitsAt scale + e.digitsAt scale, scale⟩

instance : Add Decimal := ⟨add⟩

/-- Equality of values, whatever their scales. -/
def sameValue (d e : Decimal) : Bool :=
  let scale := max d.scale e.scale
  d.digitsAt scale == e.digitsAt scale

/-- The whole part, with scale zero. -/
def truncate (d : Decimal) : Decimal :=
  if d.scale ≤ 0 then ⟨d.digits * Nat.pow 10 (-d.scale).toNat, 0⟩
  else ⟨d.digits.tdiv (Nat.pow 10 d.scale.toNat), 0⟩

/-! Reading -/

/-- Digits behind at most one sign; underscores may stand between the digits
and behind them. -/
def digitText (cs : List Char) : Except DecimalError Int :=
  match cs with
  | '-' :: rest => (unsignedText rest).map fun n => -Int.ofNat n
  | '+' :: rest => (unsignedText rest).map Int.ofNat
  | _ => (unsignedText cs).map Int.ofNat
where
  unsignedText (cs : List Char) : Except DecimalError Nat :=
    match cs with
    | [] => .error (.numeral .empty)
    | '_' :: _ => .error (.numeral .invalidDigit)
    | _ =>
      if cs.all fun c => Text.isDigit c || c == '_' then
        .ok (Text.ofDigits (cs.filter (· != '_')))
      else .error (.numeral .invalidDigit)

/-- The exponent behind the letter e: a signed numeral of 64 bits, before which
one more plus sign is allowed. -/
def exponentText (cs : List Char) : Except DecimalError Int :=
  let cs := match cs with
    | '+' :: rest => rest
    | _ => cs
  (Text.signed? (Text.maxInt64 + 1) Text.maxInt64 cs).mapError .numeral

def isExponentMark (c : Char) : Bool := c == 'e' || c == 'E'

/-- A decimal is a run of digits, possibly with a point, and possibly an
exponent. The places behind the point count all characters there. -/
def ofChars? (cs : List Char) : Except DecimalError Decimal := do
  let base := cs.takeWhile (!isExponentMark ·)
  let exponent ← match cs.dropWhile (!isExponentMark ·) with
    | [] => .ok 0
    | _ :: rest => exponentText rest
  if base.isEmpty then .error .empty
  else
    let whole := base.takeWhile (· != '.')
    let decimals := (base.dropWhile (· != '.')).drop 1
    let digits ← digitText (whole ++ decimals)
    return ⟨digits, decimals.length - exponent⟩

def parse? (s : String) : Except DecimalError Decimal :=
  ofChars? s.toList

/-! Writing -/

/-- The decimal in plain notation: a point only before decimal places, and
never an exponent. -/
def render (d : Decimal) : String :=
  let digits := toString d.digits.natAbs
  let body :=
    if d.scale ≤ 0 then digits ++ String.ofList (List.replicate (-d.scale).toNat '0')
    else
      let places := d.scale.toNat
      let cs := List.replicate (places + 1 - digits.length) '0' ++ digits.toList
      String.ofList (cs.take (cs.length - places)) ++ "." ++
        String.ofList (cs.drop (cs.length - places))
  if d.digits < 0 then "-" ++ body else body

@[simp] theorem truncate_scale (d : Decimal) : d.truncate.scale = 0 := by
  unfold truncate
  split <;> rfl

end Decimal

end ChainIndex
