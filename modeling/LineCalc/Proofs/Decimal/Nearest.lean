import Mathlib.Algebra.Order.Field.Power
import LineCalc.Decimal
import LineCalc.Proofs.Binary64.Nearest

/-!
# The number nearest to a decimal

A decimal of any size is read as the number nearest to its value.

* `Decimal.value` is the value of a decimal, and `Decimal.ratio_div` says that the numerator and
  denominator have it.
* `Decimal.nearest_eq`: the tests before the rounding change nothing.
* `Decimal.isNearest_of_nearest` and `Decimal.nearest_eq_none_iff` say what reading comes to.
-/

namespace LineCalc

namespace Decimal

/-- The value of a decimal. -/
def value (d : Decimal) : ℚ := d.digits * 10 ^ d.exponent

theorem ratio_pos (d : Decimal) : 0 < d.ratio.2 := powerOfTen_pos _

/-- The numerator and denominator have the value, counted in units. -/
theorem ratio_div (d : Decimal) :
    (d.ratio.1 : ℚ) / d.ratio.2 / Magnitude.unitsPerOne = d.value := by
  have hpower (n : Nat) : (powerOfTen n : ℚ) = 10 ^ n := by
    rw [powerOfTen, Nat.pow_eq, Nat.cast_pow, Nat.cast_ofNat]
  have hexponent : (10 : ℚ) ^ d.exponent =
      10 ^ d.exponent.toNat / 10 ^ (-d.exponent).toNat := by
    rw [← zpow_natCast, ← zpow_natCast, ← zpow_sub₀ (by norm_num), Int.toNat_sub_toNat_neg]
  rw [value, hexponent, ratio, Nat.cast_mul, Nat.cast_mul, hpower, hpower,
    mul_div_right_comm, mul_div_cancel_right₀ _ Magnitude.cast_unitsPerOne_pos.ne', mul_div_assoc]

/-- A whole decimal is compared with the bound by whole numbers. -/
theorem value_lt_overflowBound_iff (digits zeros : Nat) :
    (⟨digits, zeros⟩ : Decimal).value < Binary64.overflowBound ↔
      digits * 10 ^ zeros + 2 ^ 970 < 2 ^ 1024 := by
  have hcast (a b : Nat) : a < b ↔ (a : ℚ) < b := Nat.cast_lt.symm
  rw [value, Binary64.overflowBound, lt_sub_iff_add_lt, zpow_natCast, hcast]
  simp only [Nat.cast_add, Nat.cast_mul, Nat.cast_pow, Nat.cast_ofNat]

/-- A decimal beyond the range of the numbers. -/
theorem overflowBound_le_value {d : Decimal} (hdigits : d.digits ≠ 0) (h : 400 < d.exponent) :
    Binary64.overflowBound ≤ d.value := by
  have hten : (2 : ℚ) ^ 1024 ≤ 10 ^ 400 := by
    have : 2 ^ 1024 ≤ 10 ^ 400 := by decide +kernel
    exact_mod_cast this
  calc Binary64.overflowBound
      ≤ 2 ^ 1024 := sub_le_self _ (by positivity)
    _ ≤ 10 ^ (400 : Int) := hten
    _ ≤ 10 ^ d.exponent := zpow_le_zpow_right₀ (by norm_num) (Int.le_of_lt h)
    _ ≤ d.digits * 10 ^ d.exponent :=
        le_mul_of_one_le_left (by positivity) (Nat.one_le_cast.mpr (Nat.pos_of_ne_zero hdigits))

/-- A decimal that is less than half of the least positive number. -/
theorem two_mul_ratio_lt {d : Decimal} (h : (d.digits.log2 : Int) + 1101 < 3 * -d.exponent) :
    2 * d.ratio.1 < d.ratio.2 := by
  obtain ⟨k, hk⟩ : ∃ k : Nat, d.exponent = -k := ⟨(-d.exponent).toNat, by omega⟩
  have hratio : d.ratio = (d.digits * Magnitude.unitsPerOne, powerOfTen k) := by
    rw [ratio, hk, neg_neg, Int.toNat_natCast, Int.toNat_neg_natCast, powerOfTen_zero, Nat.mul_one]
  have hdigits : d.digits < 2 ^ (d.digits.log2 + 1) := Nat.lt_log2_self
  rw [hratio]
  calc 2 * (d.digits * Magnitude.unitsPerOne)
      < 2 * (2 ^ (d.digits.log2 + 1) * Magnitude.unitsPerOne) :=
        Nat.mul_lt_mul_of_pos_left
          (Nat.mul_lt_mul_of_pos_right hdigits Magnitude.unitsPerOne_pos) two_pos
    _ = 2 ^ (d.digits.log2 + 1 + 1074 + 1) := by
        rw [Magnitude.unitsPerOne, Nat.one_shiftLeft, ← Nat.pow_add 2 (d.digits.log2 + 1) 1074,
          ← Nat.pow_succ']
    _ ≤ 2 ^ (3 * k) := Nat.pow_le_pow_right (by decide) (by omega)
    _ = 8 ^ k := Nat.pow_mul 2 3 k
    _ ≤ 10 ^ k := Nat.pow_le_pow_left (by decide) k

/-- **The tests before the rounding change nothing.** -/
theorem nearest_eq (d : Decimal) : d.nearest = Magnitude.nearest d.ratio.1 d.ratio.2 := by
  unfold nearest
  split
  · rename_i hdigits
    have hratio : d.ratio.1 = Magnitude.zero.units * d.ratio.2 := by
      rw [Magnitude.units_zero, Nat.zero_mul, ratio, hdigits, Nat.zero_mul, Nat.zero_mul]
    rw [hratio, Magnitude.nearest_units_mul _ d.ratio_pos]
  split
  · rename_i hdigits hexponent
    refine ((Binary64.nearest_eq_none_iff _ d.ratio_pos).mpr ?_).symm
    rw [ratio_div]
    exact overflowBound_le_value hdigits hexponent
  split
  · rename_i hsmall
    exact (Magnitude.nearest_eq_zero_of_lt (two_mul_ratio_lt hsmall)).symm
  · rfl

/-- **A decimal that is read is read as the nearest number.** -/
theorem isNearest_of_nearest {d : Decimal} {m : Magnitude} (h : d.nearest = some m) :
    Binary64.IsNearest d.value (.finite false m) := by
  rw [nearest_eq] at h
  rw [← ratio_div]
  exact Binary64.isNearest_of_nearest d.ratio_pos h

/-- **A decimal is out of range exactly from the bound on.** -/
theorem nearest_eq_none_iff (d : Decimal) :
    d.nearest = none ↔ Binary64.overflowBound ≤ d.value := by
  rw [nearest_eq, ← ratio_div]
  exact Binary64.nearest_eq_none_iff _ d.ratio_pos

end Decimal

end LineCalc
