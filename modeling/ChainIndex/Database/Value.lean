/-
What columns hold of the values that are given to them. Texts and JSON values
hold no NUL character. Amounts are whole, of at most 78 digits; a half is rounded
away from zero. Times are whole microseconds, cut towards the year 2000.
-/
import ChainIndex.Instant
import ChainIndex.Json.Basic
import ChainIndex.Decimal
import ChainIndex.Tx.Basic

namespace ChainIndex.Database

/-- Why a row cannot be stored. -/
inductive RowError where
  | nul
  | tooLong
  /-- There is such a row already, or there are two of them in one statement. -/
  | repeated
  deriving DecidableEq, Inhabited

def RowError.message : RowError → String
  | nul => "text holds a NUL character"
  | tooLong => "amount has too many digits"
  | repeated => "row is there already"

/-! Texts -/

def isText (s : String) : Bool := !s.toList.contains '\x00'

mutual
/-- All texts in a value are without NUL, the keys of objects too. -/
def isStorable : Json → Bool
  | .string s => isText s
  | .array items => areStorable items
  | .object members => haveStorable members
  | _ => true

def areStorable : List Json → Bool
  | [] => true
  | j :: rest => isStorable j && areStorable rest

def haveStorable : List (String × Json) → Bool
  | [] => true
  | (k, j) :: rest => isText k && isStorable j && haveStorable rest
end

/-- Refuses texts that cannot be stored. -/
def checkTexts (texts : List String) : Except RowError Unit :=
  if texts.all isText then .ok () else .error .nul

def checkJson (values : List Json) : Except RowError Unit :=
  if values.all isStorable then .ok () else .error .nul

/-! Numbers -/

/-- The digits of an amount. -/
def amountDigits : Nat := 78

/-- The nearest whole number; halves go away from zero. -/
def roundHalfAway (digits : Int) (places : Nat) : Int :=
  let unit := Nat.pow 10 places
  let whole := (2 * digits.natAbs + unit) / (2 * unit)
  if digits < 0 then -(whole : Int) else whole

/-- The whole number of an amount. A scale beyond the number of digits leaves
less than a tenth. -/
def wholeAmount (d : Decimal) : Except RowError Int :=
  if d.digits = 0 then .ok 0
  else if d.scale < -(amountDigits : Int) then .error .tooLong
  else
    let n :=
      if d.scale ≤ 0 then d.digits * Nat.pow 10 (-d.scale).toNat
      else if (toString d.digits.natAbs).length < d.scale.toNat then 0
      else roundHalfAway d.digits d.scale.toNat
    if n.natAbs < Nat.pow 10 amountDigits then .ok n else .error .tooLong

/-- The low 32 bits of an index as a signed number. -/
def low32 (n : Nat) : Int := Int.bmod n 0x100000000

def maxInt32 : Nat := 0x7fffffff

/-! Times -/

/-- 2000-01-01T00:00:00Z, in seconds from 1970. -/
def year2000 : Int := 946684800

/-- The time in whole microseconds. -/
def storedTime (t : Instant) : Instant :=
  let micros := ((t.seconds - year2000) * 1000000000 + t.nanos).tdiv 1000
  ⟨year2000 + micros / 1000000, (micros % 1000000).toNat * 1000⟩

/-! JSON columns -/

def coinJson (c : Coin) : Json :=
  .object [("amount", .string c.amount.render), ("denom", .string c.denom)]

def keyJson (k : SignerKey) : Json :=
  .object [("key", .array (k.key.map fun b => .ofNat b.toNat)), ("type_url", .string k.typeUrl)]

def signerJson (i : SignerInfo) : Json :=
  .object [("key_type_url", .string i.keyTypeUrl), ("public_keys", .array (i.keys.map keyJson)),
    ("sequence", .ofNat i.sequence)]

def authInfoJson (a : AuthInfo) : Json :=
  .object [
    ("fee", .object [("amount", .array (a.fee.amount.map coinJson)),
      ("gas_limit", .ofNat a.fee.gasLimit), ("granter", .string a.fee.granter),
      ("payer", .string a.fee.payer)]),
    ("signer_infos", .array (a.signers.map signerJson))]

end ChainIndex.Database
