/-
Varints: a number as groups of seven bits, the lowest first, every byte but the
last with its high bit set. `read?` takes at most ten bytes and a number of at
most 64 bits, which need not be written as short as possible; it undoes `write`
whatever follows.
-/
import ChainIndex.Bytes.Basic

namespace ChainIndex.Wire.Varint

def write (n : Nat) : Bytes :=
  if n < 128 then [UInt8.ofNat n] else UInt8.ofNat (n % 128 + 128) :: write (n / 128)
termination_by n
decreasing_by omega

/-- The number at the start, written in at most `most` bytes, and the bytes
behind it. -/
def readUpTo : Nat → Bytes → Option (Nat × Bytes)
  | 0, _ => none
  | _, [] => none
  | most + 1, b :: rest =>
    if b.toNat < 128 then some (b.toNat, rest)
    else
      match readUpTo most rest with
      | some (n, rest) => some (b.toNat - 128 + 128 * n, rest)
      | none => none

def read? (bs : Bytes) : Option (Nat × Bytes) :=
  match readUpTo 10 bs with
  | some (n, rest) => if n < 0x10000000000000000 then some (n, rest) else none
  | none => none

theorem readUpTo_write (n : Nat) : ∀ (most : Nat), n < Nat.pow 128 (most + 1) → ∀ rest,
    readUpTo (most + 1) (write n ++ rest) = some (n, rest) := by
  induction n using Nat.strongRecOn with
  | ind n ih =>
    intro most h rest
    rw [write]
    split
    · next small => simp [readUpTo, small, Nat.mod_eq_of_lt (by omega : n < 256)]
    · next big =>
      have byte : (UInt8.ofNat (n % 128 + 128)).toNat = n % 128 + 128 := by
        simp [Nat.mod_eq_of_lt (by omega : n % 128 + 128 < 256)]
      cases most with
      | zero => exact absurd h (by simpa using big)
      | succ most =>
        have small : n / 128 < Nat.pow 128 (most + 1) := by
          rw [Nat.div_lt_iff_lt_mul (by omega)]
          exact h
        rw [List.cons_append, readUpTo, byte, if_neg (by omega),
          ih (n / 128) (by omega) most small rest]
        simp only [Option.some.injEq, Prod.mk.injEq, and_true]
        omega

/-- Every number of 64 bits is read back. -/
theorem read?_write {n : Nat} (h : n < 0x10000000000000000) (rest : Bytes) :
    read? (write n ++ rest) = some (n, rest) := by
  have bound : n < Nat.pow 128 10 := Nat.lt_trans h (by decide)
  rw [read?, readUpTo_write n 9 bound rest]
  exact if_pos h

end ChainIndex.Wire.Varint
