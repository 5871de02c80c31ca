import LineCalc.Binary64.Basic

/-!
# Rounding to binary64

One rule turns an exact quotient into a binary64 number, and every operation of the calculator that
is not exact uses it: the nearest number, and of two equally near ones the one whose last bit is
zero. A quotient that would round beyond the greatest finite number becomes an infinity. Numerals
are read by this rule too.

* `nearestEven` rounds a quotient to a whole number by that rule.
* `Magnitude.nearestWord` rounds a quotient of units to a word. The quotient is scaled to 53 bits,
  rounded to a whole number and put together with its scale; a carry out of the 53 bits moves the
  exponent by itself, because words and values have the same order.
* `Magnitude.nearest` is the magnitude with that word, if there is one.
* `Magnitude.nearest_units_mul`: what is a magnitude already stays what it is.
* `Binary64.ofRatio` adds the sign and the infinities.
-/

namespace LineCalc

/-- The whole number nearest to `num / den`, a tie going to the even one. -/
def nearestEven (num den : Nat) : Nat :=
  let quotient := num / den
  let twice := 2 * (num % den)
  if twice < den ∨ (twice = den ∧ quotient % 2 = 0) then quotient else quotient + 1

theorem nearestEven_one (num : Nat) : nearestEven num 1 = num := by
  simp [nearestEven, Nat.mod_one]

theorem nearestEven_mul (n : Nat) {den : Nat} (h : 0 < den) : nearestEven (n * den) den = n := by
  simp [nearestEven, Nat.mul_div_cancel _ h, h]

theorem le_nearestEven (num den : Nat) : num / den ≤ nearestEven num den := by
  unfold nearestEven
  dsimp only
  split <;> omega

theorem nearestEven_le (num den : Nat) : nearestEven num den ≤ num / den + 1 := by
  unfold nearestEven
  dsimp only
  split <;> omega

/-- The rounded quotient is within half a unit of the exact one. -/
theorem nearestEven_near (num : Nat) {den : Nat} (h : 0 < den) :
    2 * num ≤ (2 * nearestEven num den + 1) * den ∧
      2 * nearestEven num den * den ≤ 2 * num + den := by
  have hd := Nat.div_add_mod num den
  have hr := Nat.mod_lt num h
  unfold nearestEven
  dsimp only
  generalize num / den = q at *
  generalize num % den = r at *
  subst hd
  split <;> rename_i hs
  · constructor <;> grind
  · constructor <;> grind

namespace Magnitude

/-- The word nearest to `num / den` units, ties to even, whether or not a magnitude has it. -/
def nearestWord (num den : Nat) : Nat :=
  let scale := (num / den).log2 - 52
  (scale <<< 52) + nearestEven num (den <<< scale)

/-- The magnitude nearest to `num / den` units, ties to even; nothing beyond the greatest one. -/
def nearest (num den : Nat) : Option Magnitude :=
  if h : nearestWord num den < 2047 <<< 52 then some ⟨nearestWord num den, h⟩ else none

theorem log2_shiftLeft {n : Nat} (h : n ≠ 0) (k : Nat) : (n <<< k).log2 = n.log2 + k := by
  induction k with
  | zero => simp
  | succ k ih =>
    have hk : n <<< k ≠ 0 := by
      rw [Nat.shiftLeft_eq]
      exact Nat.ne_of_gt (Nat.mul_pos (Nat.pos_of_ne_zero h) (Nat.two_pow_pos k))
    rw [Nat.shiftLeft_succ, Nat.log2_two_mul hk, ih, Nat.add_assoc]

/-- The scale of a value is the scale that its word has, and what is left of the word are the scaled
units. -/
theorem units_eq_shiftLeft (m : Magnitude) : ∃ scaled,
    m.units = scaled <<< (m.units.log2 - 52) ∧
      m.code = ((m.units.log2 - 52) <<< 52) + scaled := by
  unfold units unitsOf
  split
  · rename_i h
    refine ⟨m.code, ?_⟩
    have hl : m.code.log2 - 52 = 0 := by
      by_cases h0 : m.code = 0
      · simp [h0]
      · have := (Nat.log2_lt h0 (k := 52)).2 (by omega)
        omega
    simp [hl]
  · rename_i h
    refine ⟨(1 <<< 52) + m.code % (1 <<< 52), ?_⟩
    have hf := Nat.mod_lt m.code (show 0 < 1 <<< 52 by decide)
    have hd := Nat.div_add_mod m.code (1 <<< 52)
    rw [Nat.shiftRight_eq_div_pow m.code, ← Nat.one_shiftLeft 52]
    generalize m.code % (1 <<< 52) = fraction at hf hd
    have he : 0 < m.code / (1 <<< 52) := Nat.div_pos (by omega) (by decide)
    generalize m.code / (1 <<< 52) = exponent at he hd
    have hs : (1 <<< 52) + fraction ≠ 0 := by omega
    have hl : ((1 <<< 52) + fraction).log2 = 52 := (Nat.log2_eq_iff hs).2 (by omega)
    rw [log2_shiftLeft hs, hl, Nat.add_comm 52, Nat.add_sub_cancel,
      Nat.shiftLeft_eq (exponent - 1) 52]
    refine ⟨rfl, ?_⟩
    omega

/-- A magnitude is the nearest one to its own value, over whatever denominator. -/
theorem nearest_units_mul (m : Magnitude) {den : Nat} (h : 0 < den) :
    nearest (m.units * den) den = some m := by
  obtain ⟨scaled, hu, hc⟩ := m.units_eq_shiftLeft
  have hword : nearestWord (m.units * den) den = m.code := by
    unfold nearestWord
    rw [Nat.mul_div_cancel _ h]
    generalize m.units.log2 - 52 = scale at hu hc
    have hn : nearestEven (m.units * den) (den <<< scale) = scaled := by
      rw [hu, Nat.shiftLeft_eq, Nat.shiftLeft_eq, Nat.mul_assoc, Nat.mul_comm _ den]
      exact nearestEven_mul _ (Nat.mul_pos h (Nat.two_pow_pos _))
    simp only [hn, hc]
  simp only [nearest, hword]
  exact dif_pos m.code_lt

end Magnitude

namespace Binary64

/-- The number nearest to `num / den` units with the given sign. -/
def ofRatio (negative : Bool) (num den : Nat) : Binary64 :=
  match Magnitude.nearest num den with
  | some m => finite negative m
  | none => infinite negative

end Binary64

end LineCalc
