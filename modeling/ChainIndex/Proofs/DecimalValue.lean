/-
The rational number that a decimal stands for. Sums of decimals are sums of these
numbers, decimals are of the same value if they stand for the same number, and a decimal
is zero if its number is. Dropping the fraction of a decimal that is not negative gives the
greatest whole number that is not above it.
-/
import ChainIndex.Decimal
import Mathlib.Algebra.Field.Rat
import Mathlib.Algebra.Order.Field.Power
import Mathlib.Algebra.Order.Floor.Semifield
import Mathlib.Algebra.Order.Ring.Rat
import Mathlib.Data.Rat.Floor
import Mathlib.Tactic.Ring

namespace ChainIndex.Decimal

/-- The number `digits / 10 ^ scale`. -/
def value (d : Decimal) : ℚ := d.digits * 10 ^ (-d.scale)

variable {d e : Decimal}

theorem ten_zpow_pos (n : Int) : (0 : ℚ) < 10 ^ n := zpow_pos (by norm_num) n

@[simp] theorem value_zero : zero.value = 0 := by simp [value, zero]

theorem value_nonneg (h : 0 ≤ d.digits) : 0 ≤ d.value :=
  mul_nonneg (by exact_mod_cast h) (ten_zpow_pos _).le

theorem value_eq_zero_iff : d.value = 0 ↔ d.isZero = true := by
  simp [value, isZero, (ten_zpow_pos _).ne']

/-- The digits at a larger scale stand for the same number there. -/
theorem digitsAt_value {scale : Int} (h : d.scale ≤ scale) :
    (d.digitsAt scale : ℚ) * 10 ^ (-scale) = d.value := by
  have more : (10 : ℚ) ^ (scale - d.scale).toNat = 10 ^ (scale - d.scale) := by
    rw [← zpow_natCast, Int.toNat_of_nonneg (by omega)]
  calc (d.digitsAt scale : ℚ) * 10 ^ (-scale)
      = d.digits * (10 ^ (scale - d.scale) * 10 ^ (-scale)) := by
        rw [← more, ← mul_assoc]
        simp [digitsAt]
    _ = d.value := by
        rw [← zpow_add₀ (by norm_num), value]
        ring_nf

theorem value_add : (d + e).value = d.value + e.value := by
  have left : d.scale ≤ max d.scale e.scale := le_max_left _ _
  have right : e.scale ≤ max d.scale e.scale := le_max_right _ _
  calc (d + e).value
      = ((d.digitsAt (max d.scale e.scale) + e.digitsAt (max d.scale e.scale) : Int) : ℚ) *
          10 ^ (-max d.scale e.scale) := rfl
    _ = d.value + e.value := by
        rw [Int.cast_add, add_mul, digitsAt_value left, digitsAt_value right]

theorem sameValue_iff : d.sameValue e = true ↔ d.value = e.value := by
  have left : d.scale ≤ max d.scale e.scale := le_max_left _ _
  have right : e.scale ≤ max d.scale e.scale := le_max_right _ _
  rw [← digitsAt_value left, ← digitsAt_value right, sameValue, beq_iff_eq,
    mul_left_inj' (ten_zpow_pos _).ne', Int.cast_inj]

@[simp] theorem value_ofNat (n : Nat) : (ofNat n).value = n := by simp [value, ofNat]

/-- Of a decimal that is not negative the whole part is the floor. -/
theorem truncate_eq_floor (nonneg : 0 ≤ d.digits) : d.truncate = ofNat ⌊d.value⌋₊ := by
  obtain ⟨n, scale⟩ := d
  obtain ⟨n, rfl⟩ := Int.eq_ofNat_of_zero_le nonneg
  rw [truncate, ofNat]
  by_cases noFraction : scale ≤ 0
  · obtain ⟨k, rfl⟩ : ∃ k : Nat, scale = -k := ⟨(-scale).toNat, by omega⟩
    have whole : value ⟨n, -k⟩ = ((n * 10 ^ k : Nat) : ℚ) := by
      simp [value]
    rw [if_pos noFraction, whole, Nat.floor_natCast]
    simp
  · obtain ⟨k, rfl⟩ : ∃ k : Nat, scale = k := ⟨scale.toNat, by omega⟩
    have quotient : value ⟨n, k⟩ = (n : ℚ) / ((10 ^ k : Nat) : ℚ) := by
      simp [value, div_eq_mul_inv]
    rw [if_neg noFraction, quotient, Nat.floor_div_natCast, Nat.floor_natCast, Int.toNat_natCast]
    exact congrArg (Decimal.mk · 0) (Int.ofNat_tdiv n (10 ^ k)).symm

end ChainIndex.Decimal
