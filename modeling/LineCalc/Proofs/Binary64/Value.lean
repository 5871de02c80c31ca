import Mathlib.Algebra.Order.Field.Rat
import Mathlib.Algebra.Order.Ring.Abs
import Mathlib.Order.Monotone.Basic
import Mathlib.Tactic.Linarith
import Mathlib.Tactic.Ring
import LineCalc.Binary64.Arithmetic

/-!
# The values of numbers

A finite number has a rational value, and the words of magnitudes have the same order as their
values. Words go on beyond those of the magnitudes; what is said here of words holds of all of them,
so that rounding can be looked at before it is known whether the result is finite.

* `Magnitude.unitsOf_scaled` and `Magnitude.exists_scaled`: a word is a scale and at most 53 bits
  that are scaled by it.
* `Magnitude.unitsOf_strictMono`: a greater word is a greater value.
* `Binary64.value` is the value of a number.
-/

namespace LineCalc

namespace Magnitude

/-! ## Words -/

theorem unitsOf_zero : unitsOf 0 = 0 := rfl

theorem unitsOf_of_lt {code : Nat} (h : code < 1 <<< 52) : unitsOf code = code := if_pos h

/-- From the second exponent field on, the fraction has a hidden bit. -/
theorem unitsOf_hidden (scale : Nat) {fraction : Nat} (h : fraction < 1 <<< 52) :
    unitsOf (((scale + 1) <<< 52) + fraction) = ((1 <<< 52) + fraction) <<< scale := by
  have hmod : (((scale + 1) <<< 52) + fraction) % (1 <<< 52) = fraction := by
    rw [Nat.shiftLeft_eq, Nat.one_shiftLeft, Nat.mul_add_mod_self_right, ← Nat.one_shiftLeft]
    exact Nat.mod_eq_of_lt h
  have hdiv : (((scale + 1) <<< 52) + fraction) >>> 52 = scale + 1 := by omega
  rw [unitsOf, if_neg (by omega), hmod, hdiv, Nat.add_sub_cancel]

/-- The value of a word that is put together from a scale and scaled bits. All of the 53 bits are
used, unless the scale is the least one; a carry out of them does no harm. -/
theorem unitsOf_scaled {scale scaled : Nat} (hlow : scale = 0 ∨ 1 <<< 52 ≤ scaled)
    (hhigh : scaled ≤ 1 <<< 53) : unitsOf ((scale <<< 52) + scaled) = scaled <<< scale := by
  by_cases hsmall : scaled < 1 <<< 52
  · obtain rfl : scale = 0 := by omega
    rw [Nat.zero_shiftLeft, Nat.zero_add, unitsOf_of_lt hsmall, Nat.shiftLeft_zero]
  by_cases hcarry : scaled = 1 <<< 53
  · subst hcarry
    have hcode : (scale <<< 52) + (1 <<< 53) = ((scale + 1 + 1) <<< 52) + 0 := by omega
    rw [hcode, unitsOf_hidden (scale + 1) (by decide), Nat.add_comm scale, Nat.shiftLeft_add]
    rfl
  · have hcode : (scale <<< 52) + scaled = ((scale + 1) <<< 52) + (scaled - (1 <<< 52)) := by omega
    rw [hcode, unitsOf_hidden scale (by omega), Nat.add_sub_cancel' (by omega)]

/-- Every word is put together from a scale and scaled bits without a carry. -/
theorem exists_scaled (code : Nat) : ∃ scale scaled, code = (scale <<< 52) + scaled ∧
    (scale = 0 ∨ 1 <<< 52 ≤ scaled) ∧ scaled < 1 <<< 53 := by
  by_cases h : code < 1 <<< 52
  · exact ⟨0, code, by omega, Or.inl rfl, by omega⟩
  · have hmod := Nat.mod_lt code (show 0 < 1 <<< 52 by decide)
    have hdiv := Nat.div_add_mod code (1 <<< 52)
    exact ⟨code / (1 <<< 52) - 1, (1 <<< 52) + code % (1 <<< 52), by omega, by omega, by omega⟩

theorem unitsOf_lt_unitsOf_add_one (code : Nat) : unitsOf code < unitsOf (code + 1) := by
  obtain ⟨scale, scaled, rfl, hlow, hhigh⟩ := exists_scaled code
  rw [unitsOf_scaled hlow (Nat.le_of_lt hhigh), Nat.add_assoc, unitsOf_scaled (by omega) hhigh,
    Nat.shiftLeft_eq, Nat.shiftLeft_eq]
  exact Nat.mul_lt_mul_of_pos_right (Nat.lt_succ_self _) (Nat.two_pow_pos _)

/-- **A greater word is a greater value.** -/
theorem unitsOf_strictMono : StrictMono unitsOf :=
  strictMono_nat_of_lt_succ unitsOf_lt_unitsOf_add_one

theorem unitsPerOne_pos : 0 < unitsPerOne := by decide +kernel

theorem cast_unitsPerOne_pos : (0 : ℚ) < unitsPerOne := Nat.cast_pos.mpr unitsPerOne_pos

end Magnitude

namespace Binary64

/-! ## Numbers -/

/-- The value of a number; zero for what is not finite. -/
def value (x : Binary64) : ℚ := x.units / Magnitude.unitsPerOne

/-- Whether the last bit of the word of a finite number is zero. -/
def hasEvenWord : Binary64 → Bool
  | finite _ m => m.code % 2 == 0
  | _ => false

theorem value_finite (m : Magnitude) :
    (finite false m).value = m.units / Magnitude.unitsPerOne := by
  rw [value, units, Int.cast_natCast]

theorem value_finite_neg (m : Magnitude) :
    (finite true m).value = -(finite false m).value := by
  rw [value, value, units, units, Int.cast_neg, neg_div]

theorem abs_value (negative : Bool) (m : Magnitude) :
    |(finite negative m).value| = (finite false m).value := by
  have hnonneg : 0 ≤ (finite false m).value := by
    rw [value_finite]
    exact div_nonneg (Nat.cast_nonneg _) (Nat.cast_nonneg _)
  cases negative with
  | false => exact abs_of_nonneg hnonneg
  | true => rw [abs_eq_abs.mpr (Or.inr (value_finite_neg m)), abs_of_nonneg hnonneg]

theorem value_lt_of_units_lt {m n : Magnitude} (h : m.units < n.units) :
    (finite false m).value < (finite false n).value := by
  rw [value_finite, value_finite]
  exact div_lt_div_of_pos_right (Nat.cast_lt.mpr h) Magnitude.cast_unitsPerOne_pos

theorem value_lt_of_code_lt {m n : Magnitude} (h : m.code < n.code) :
    (finite false m).value < (finite false n).value :=
  value_lt_of_units_lt (Magnitude.unitsOf_strictMono h)

/-- A number that is not below zero has the value of a word. -/
theorem exists_units_eq_unitsOf (x : Binary64) :
    (∃ code, x.units = Magnitude.unitsOf code) ∨ x.units < 0 := by
  match x with
  | nan | infinite _ => exact Or.inl ⟨0, rfl⟩
  | finite false m => exact Or.inl ⟨m.code, rfl⟩
  | finite true m =>
    by_cases hzero : m.units = 0
    · exact Or.inl ⟨0, by simp [units, hzero, Magnitude.unitsOf_zero]⟩
    · exact Or.inr (by simp only [units]; omega)

end Binary64

end LineCalc
