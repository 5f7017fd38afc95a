/-
Byte strings, their hexadecimal spelling and the UTF-8 texts among them. Hex is
written in lower or upper case and read in any mixture of the two; both
spellings of a byte string read back as it.
-/

namespace ChainIndex

abbrev Bytes := List UInt8

namespace Bytes

def hexDigits : List Char :=
  ['0', '1', '2', '3', '4', '5', '6', '7', '8', '9', 'a', 'b', 'c', 'd', 'e', 'f']

def upperHexDigits : List Char :=
  ['0', '1', '2', '3', '4', '5', '6', '7', '8', '9', 'A', 'B', 'C', 'D', 'E', 'F']

/-- The value of a hexadecimal digit of either case. -/
def hexDigit? (c : Char) : Option Nat :=
  if '0' ≤ c ∧ c ≤ '9' then some (c.toNat - '0'.toNat)
  else if 'a' ≤ c ∧ c ≤ 'f' then some (c.toNat - 'a'.toNat + 10)
  else if 'A' ≤ c ∧ c ≤ 'F' then some (c.toNat - 'A'.toNat + 10)
  else none

/-- Two digits of the given table for each byte. -/
def toHexChars (digits : List Char) (bs : Bytes) : List Char :=
  bs.flatMap fun b => [digits.getD (b.toNat / 16) '0', digits.getD (b.toNat % 16) '0']

def toHex (bs : Bytes) : String :=
  String.ofList (toHexChars hexDigits bs)

def toUpperHex (bs : Bytes) : String :=
  String.ofList (toHexChars upperHexDigits bs)

/-- Two digits of either case for each byte, and nothing else. -/
def ofHexChars? : List Char → Option Bytes
  | [] => some []
  | [_] => none
  | c :: d :: rest => do
    let high ← hexDigit? c
    let low ← hexDigit? d
    let bs ← ofHexChars? rest
    return UInt8.ofNat (16 * high + low) :: bs

def ofHex? (s : String) : Option Bytes :=
  ofHexChars? s.toList

/-- The UTF-8 bytes of a text. -/
def ofText (s : String) : Bytes :=
  s.toUTF8.data.toList

/-- The text of which these are the UTF-8 bytes. -/
def toText? (bs : Bytes) : Option String :=
  String.fromUTF8? ⟨bs.toArray⟩

theorem toText?_ofText (s : String) : toText? (ofText s) = some s := by
  have h : (⟨(ofText s).toArray⟩ : ByteArray) = s.toUTF8 := by
    simp [ofText]
  rw [toText?, h]
  simp only [String.fromUTF8?, String.toUTF8, s.isValidUTF8, ↓reduceDIte]
  rfl

theorem hexDigit?_lower : ∀ n, n < 16 → hexDigit? (hexDigits.getD n '0') = some n := by
  decide

theorem hexDigit?_upper : ∀ n, n < 16 → hexDigit? (upperHexDigits.getD n '0') = some n := by
  decide

/-- A spelling whose digits read back reads back as a whole. -/
theorem ofHexChars?_toHexChars {digits : List Char}
    (h : ∀ n, n < 16 → hexDigit? (digits.getD n '0') = some n) (bs : Bytes) :
    ofHexChars? (toHexChars digits bs) = some bs := by
  induction bs with
  | nil => rfl
  | cons b bs ih =>
    have hb := b.toNat_lt
    have e : UInt8.ofNat (16 * (b.toNat / 16) + b.toNat % 16) = b := by
      rw [Nat.div_add_mod]
      exact UInt8.ofNat_toNat
    have step : toHexChars digits (b :: bs) = digits.getD (b.toNat / 16) '0' ::
        digits.getD (b.toNat % 16) '0' :: toHexChars digits bs := rfl
    rw [step, ofHexChars?, h _ (by omega), h _ (by omega), ih]
    exact congrArg (fun x => some (x :: bs)) e

theorem ofHex?_toHex (bs : Bytes) : ofHex? bs.toHex = some bs := by
  simp [ofHex?, toHex, ofHexChars?_toHexChars hexDigit?_lower]

theorem ofHex?_toUpperHex (bs : Bytes) : ofHex? bs.toUpperHex = some bs := by
  simp [ofHex?, toUpperHex, ofHexChars?_toHexChars hexDigit?_upper]

end Bytes

end ChainIndex
