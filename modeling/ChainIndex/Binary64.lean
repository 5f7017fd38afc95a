/-
Numbers with 53 significant binary digits, and rounding to them: to the nearest,
of two equally near to the even one. A number is `mantissa * 2 ^ exponent`; the
exponent has no bounds, so nothing overflows, and whoever uses a number says how
large it may be.
-/

namespace ChainIndex

structure Binary64 where
  mantissa : Nat
  exponent : Int
  deriving DecidableEq

namespace Binary64

def precision : Nat := 53

/-- The nearest multiple of `2 ^ k`, counted in multiples; a tie goes to the
even one. -/
def nearest (n k : Nat) : Nat :=
  let down := n / Nat.pow 2 k
  let rest := n % Nat.pow 2 k
  if 2 * rest < Nat.pow 2 k then down
  else if Nat.pow 2 k < 2 * rest then down + 1
  else down + down % 2

/-- Rounds `n * 2 ^ exponent`. -/
def round (n : Nat) (exponent : Int) : Binary64 :=
  let extra := n.log2 + 1 - precision
  if extra = 0 then ⟨n, exponent⟩ else ⟨nearest n extra, exponent + extra⟩

def one : Binary64 := ⟨1, 0⟩

def mul (x y : Binary64) : Binary64 :=
  round (x.mantissa * y.mantissa) (x.exponent + y.exponent)

instance : Mul Binary64 := ⟨mul⟩

/-- A power, by squaring and multiplying from the lowest binary digit of the
exponent upwards; each product is rounded. -/
def power (base : Binary64) (n : Nat) : Binary64 :=
  go one base n
where
  go (product square : Binary64) (n : Nat) : Binary64 :=
    let product := if n % 2 = 1 then product * square else product
    if n / 2 = 0 then product else go product (square * square) (n / 2)
  termination_by n
  decreasing_by omega

/-- Rounds a fraction. The quotient gets two digits more than are kept, and a
last digit that says whether anything is left over. -/
def ofFraction (numerator denominator : Nat) : Binary64 :=
  let shift := precision + 2 + denominator.log2 - numerator.log2
  let scaled := numerator * Nat.pow 2 shift
  let quotient := scaled / denominator
  let sticky := if scaled % denominator = 0 then 0 else 1
  round (2 * quotient + sticky) (-(shift : Int) - 1)

/-- Rounds `digits * 10 ^ exponent`. -/
def ofDecimal (digits : Nat) (exponent : Int) : Binary64 :=
  if exponent < 0 then ofFraction digits (Nat.pow 10 (-exponent).toNat)
  else round (digits * Nat.pow 10 exponent.toNat) 0

/-- The nearest whole number to `x * n`, a tie going to the even one. -/
def timesNearest (x : Binary64) (n : Nat) : Nat :=
  if 0 ≤ x.exponent then x.mantissa * n * Nat.pow 2 x.exponent.toNat
  else nearest (x.mantissa * n) (-x.exponent).toNat

/-- Whether `x` is less than the whole number `n`. -/
def lessThan (x : Binary64) (n : Nat) : Bool :=
  if 0 ≤ x.exponent then x.mantissa * Nat.pow 2 x.exponent.toNat < n
  else x.mantissa < n * Nat.pow 2 (-x.exponent).toNat

end Binary64

end ChainIndex
