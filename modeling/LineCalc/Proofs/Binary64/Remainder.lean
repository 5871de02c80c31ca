import Mathlib.Data.Rat.Floor
import LineCalc.Proofs.Binary64.Value
import LineCalc.Session

/-!
# The remainder

The remainder of two finite numbers is exact, however great the quotient is: what truncated division
leaves is itself a number.

* `Magnitude.exists_units_eq`: a value of at most 53 bits at some scale is the value of a word, and
  `Magnitude.exists_units_mod`: the remainder of two magnitudes is such a value.
* `Binary64.truncate` rounds toward zero.
* `Binary64.IsRemainder` says which number the remainder is.
* `Operator.evalBinary_mod` is the statement for all operands, finite or not.
-/

namespace LineCalc

namespace Magnitude

/-! ## Remainders of magnitudes -/

/-- At most 53 bits can be moved down to the least scale, or until all 53 bits are used. -/
theorem exists_unitsOf_eq {scaled : Nat} (scale : Nat) (h : scaled < 1 <<< 53) :
    ∃ code, unitsOf code = scaled <<< scale := by
  induction scale generalizing scaled with
  | zero => exact ⟨_, unitsOf_scaled (Or.inl rfl) (Nat.le_of_lt h)⟩
  | succ scale ih =>
    by_cases hlow : 1 <<< 52 ≤ scaled
    · exact ⟨_, unitsOf_scaled (Or.inr hlow) (Nat.le_of_lt h)⟩
    · obtain ⟨code, hcode⟩ := ih (show 2 * scaled < 1 <<< 53 by omega)
      exact ⟨code, hcode.trans (Nat.shiftLeft_succ_inside scaled scale).symm⟩

/-- The value of a magnitude has at most 53 bits at some scale. -/
theorem exists_units_eq (m : Magnitude) :
    ∃ scale scaled, m.units = scaled * 2 ^ scale ∧ scaled < 1 <<< 53 := by
  obtain ⟨scale, scaled, hcode, hlow, hhigh⟩ := exists_scaled m.code
  refine ⟨scale, scaled, ?_, hhigh⟩
  rw [units, hcode, unitsOf_scaled hlow (Nat.le_of_lt hhigh), Nat.shiftLeft_eq]

/-- **The remainder of two magnitudes is a magnitude.** It is a multiple of the smaller of the two
scales, and it is not greater than the magnitude that has this scale. -/
theorem exists_units_mod (m : Magnitude) {n : Magnitude} (hn : n ≠ zero) :
    ∃ r : Magnitude, r.units = m.units % n.units := by
  obtain ⟨a, x, hm, hx⟩ := m.exists_units_eq
  obtain ⟨b, y, hn', hy⟩ := n.exists_units_eq
  have hpos : 0 < n.units := Nat.pos_of_ne_zero (mt units_eq_zero_iff.mp hn)
  have hbits : ∃ scale scaled, m.units % n.units = scaled * 2 ^ scale ∧ scaled < 1 <<< 53 := by
    rcases Nat.le_total b a with hle | hle
    · refine ⟨b, x * 2 ^ (a - b) % y, ?_, ?_⟩
      · rw [hm, hn', ← Nat.mul_mod_mul_right, Nat.mul_assoc, ← Nat.pow_add, Nat.sub_add_cancel hle]
      · refine Nat.lt_of_lt_of_le (Nat.mod_lt _ (Nat.pos_of_ne_zero ?_)) (Nat.le_of_lt hy)
        rintro rfl
        omega
    · refine ⟨a, x % (y * 2 ^ (b - a)), ?_, Nat.lt_of_le_of_lt (Nat.mod_le _ _) hx⟩
      rw [hm, hn', ← Nat.mul_mod_mul_right, Nat.mul_assoc y, ← Nat.pow_add, Nat.sub_add_cancel hle]
  obtain ⟨scale, scaled, hmod, hscaled⟩ := hbits
  obtain ⟨code, hcode⟩ := exists_unitsOf_eq scale hscaled
  rw [Nat.shiftLeft_eq, ← hmod] at hcode
  have hle : unitsOf code ≤ unitsOf m.code := hcode ▸ Nat.mod_le _ _
  exact ⟨⟨code, Nat.lt_of_le_of_lt (unitsOf_strictMono.le_iff_le.mp hle) m.code_lt⟩, hcode⟩

end Magnitude

namespace Binary64

/-! ## Division toward zero -/

/-- A value rounded toward zero. -/
def truncate (q : ℚ) : Int := if 0 ≤ q then ⌊q⌋ else ⌈q⌉

theorem truncate_neg (q : ℚ) : truncate (-q) = -truncate q := by
  unfold truncate
  rcases lt_trichotomy q 0 with h | rfl | h
  · rw [if_pos (by linarith), if_neg (by linarith), Int.floor_neg]
  · simp
  · rw [if_neg (by linarith), if_pos (by linarith), Int.ceil_neg]

theorem truncate_natCast_div (m n : Nat) : truncate (m / n) = (m / n : Nat) := by
  rw [truncate, if_pos (by positivity), Rat.floor_natCast_div_natCast, Int.natCast_ediv]

/-- A number is the remainder of two others: it is finite, has the sign of the dividend and is
smaller than the divisor, and the dividend without it is the divisor times the quotient rounded
toward zero. -/
structure IsRemainder (x y r : Binary64) : Prop where
  finite : r.isFinite = true
  sign : r.isNegative = x.isNegative
  lt : |r.value| < |y.value|
  quotient : x.value - r.value = truncate (x.value / y.value) * y.value

theorem isZero_finite (s : Bool) {m : Magnitude} (h : m ≠ .zero) :
    (finite s m).isZero = false := by
  rw [← Bool.not_eq_true, isZero_iff]
  rintro ⟨s', heq⟩
  exact h (finite.inj heq).2

/-- What is a magnitude already is not rounded. -/
theorem ofRatio_units (s : Bool) (m : Magnitude) : ofRatio s m.units 1 = finite s m := by
  have hnearest := m.nearest_units_mul Nat.one_pos
  rw [Nat.mul_one] at hnearest
  unfold ofRatio
  rw [hnearest]

/-- The remainder has the magnitude that integer division leaves; there is nothing to round. -/
theorem exists_mod_eq (s t : Bool) (m : Magnitude) {n : Magnitude} (hn : n ≠ .zero) :
    ∃ r : Magnitude, r.units = m.units % n.units ∧ finite s m % finite t n = finite s r := by
  obtain ⟨r, hr⟩ := m.exists_units_mod hn
  have hmod : finite s m % finite t n =
      if (finite t n).isZero then nan else ofRatio s (m.units % n.units) 1 := rfl
  refine ⟨r, hr, ?_⟩
  rw [hmod, isZero_finite t hn, if_neg Bool.false_ne_true, ← hr, ofRatio_units]

section Unsigned

variable {m n r : Magnitude} (hr : r.units = m.units % n.units)
include hr

theorem value_mod_lt (hn : n ≠ .zero) : (finite false r).value < (finite false n).value := by
  have hpos : 0 < n.units := Nat.pos_of_ne_zero (mt Magnitude.units_eq_zero_iff.mp hn)
  exact value_lt_of_units_lt (hr ▸ Nat.mod_lt _ hpos)

theorem value_sub_value_mod : (finite false m).value - (finite false r).value =
    truncate ((finite false m).value / (finite false n).value) * (finite false n).value := by
  have hunits : (m.units : ℚ) - r.units = (m.units / n.units : Nat) * n.units := by
    rw [hr, sub_eq_iff_eq_add]
    exact_mod_cast (Nat.div_add_mod' m.units n.units).symm
  rw [value_finite, value_finite, value_finite,
    div_div_div_cancel_right₀ Magnitude.cast_unitsPerOne_pos.ne', truncate_natCast_div, ← sub_div,
    hunits, mul_div_assoc, Int.cast_natCast]

end Unsigned

/-- **The remainder of finite numbers is exact.** -/
theorem isRemainder_mod (s t : Bool) (m : Magnitude) {n : Magnitude} (hn : n ≠ .zero) :
    IsRemainder (finite s m) (finite t n) (finite s m % finite t n) := by
  obtain ⟨r, hr, hmod⟩ := exists_mod_eq s t m hn
  have hquotient := value_sub_value_mod hr
  rw [hmod]
  refine ⟨rfl, rfl, ?_, ?_⟩
  · rw [abs_value, abs_value]
    exact value_mod_lt hr hn
  · cases s with
    | false =>
      cases t with
      | false => exact hquotient
      | true =>
        rw [value_finite_neg n, div_neg, truncate_neg, Int.cast_neg, neg_mul_neg]
        exact hquotient
    | true =>
      rw [value_finite_neg m, value_finite_neg r]
      cases t with
      | false =>
        rw [neg_div, truncate_neg, Int.cast_neg]
        linarith
      | true =>
        rw [value_finite_neg n, neg_div_neg_eq]
        linarith

theorem infinite_mod (s : Bool) (y : Binary64) : infinite s % y = nan := by cases y <;> rfl

end Binary64

/-! ## The operator -/

namespace Operator

theorem evalBinary_mod_eq (x y : Binary64) (node : NodeId) : mod.evalBinary x y node =
    if y.isZero then .error (.divisionByZero node) else .ok (x % y) := rfl

/-- **The remainder is exact and has the sign of the dividend.** Of a finite number by a finite one
that is not zero it is what truncated division leaves; a finite number divided by an infinity is its
own remainder, and what has no remainder is not a number. The error of a division by zero is raised
for the two zeros and for nothing else. -/
theorem evalBinary_mod (x y : Binary64) (node : NodeId) :
    (x.isFinite = true → y.isFinite = true → y.isZero = false →
      ∃ r, mod.evalBinary x y node = .ok r ∧ Binary64.IsRemainder x y r) ∧
    (x.isFinite = true → (∃ s, y = .infinite s) → mod.evalBinary x y node = .ok x) ∧
    (y.isZero = false → (x = .nan ∨ y = .nan ∨ ∃ s, x = .infinite s) →
      mod.evalBinary x y node = .ok .nan) ∧
    ∀ e, mod.evalBinary x y node = .error e ↔
      e = .divisionByZero node ∧ ∃ s, y = .zero s := by
  rw [evalBinary_mod_eq]
  refine ⟨fun hx hy hzero => ?_, ?_, fun hzero hnone => ?_, fun e => ?_⟩
  · rw [hzero, if_neg Bool.false_ne_true]
    match x, y, hx, hy with
    | .finite s m, .finite t n, _, _ =>
      have hn : n ≠ .zero := by
        rintro rfl
        cases hzero
      exact ⟨_, rfl, Binary64.isRemainder_mod s t m hn⟩
  · rintro hx ⟨s, rfl⟩
    match x, hx with
    | .finite _ _, _ => rfl
  · rw [hzero, if_neg Bool.false_ne_true]
    rcases hnone with rfl | rfl | ⟨s, rfl⟩
    · rw [Binary64.nan_mod]
    · rw [Binary64.mod_nan]
    · rw [Binary64.infinite_mod]
  · rw [← Binary64.isZero_iff]
    by_cases hzero : y.isZero = true
    · rw [if_pos hzero, Except.error.injEq, and_iff_left hzero, eq_comm]
    · rw [if_neg hzero]
      exact ⟨nofun, fun h => absurd h.2 hzero⟩

/-- The number farthest below zero by three times the least positive one, a negative zero by an
infinity, and an infinity. -/
theorem evalBinary_mod_of_extremes :
    (∃ r, mod.evalBinary (.finite true ⟨2047 <<< 52 - 1, by decide⟩)
        (.finite false ⟨3, by decide⟩) 0 = .ok r ∧
      Binary64.IsRemainder (.finite true ⟨2047 <<< 52 - 1, by decide⟩)
        (.finite false ⟨3, by decide⟩) r) ∧
    mod.evalBinary (.zero true) (.infinite false) 0 = .ok (.zero true) ∧
    mod.evalBinary (.infinite true) (.finite false ⟨3, by decide⟩) 0 = .ok .nan :=
  ⟨(evalBinary_mod _ _ 0).1 rfl rfl rfl, (evalBinary_mod _ _ 0).2.1 rfl ⟨false, rfl⟩,
    (evalBinary_mod _ _ 0).2.2.1 rfl (Or.inr (Or.inr ⟨true, rfl⟩))⟩

example : Binary64.finite true ⟨2047 <<< 52 - 1, by decide⟩ % .finite false ⟨3, by decide⟩ =
    .finite true ⟨2, by decide⟩ := by decide +kernel

end Operator

end LineCalc
