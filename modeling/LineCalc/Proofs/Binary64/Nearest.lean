import Mathlib.Algebra.Order.Field.Basic
import Mathlib.Tactic.FieldSimp
import LineCalc.Proofs.Binary64.Value

/-!
# The nearest number

Rounding finds the nearest number, and says that a quotient is out of range exactly if it is not
below the middle between the greatest finite number and the number that would come next.

* `Magnitude.Rounds` says of a word that it is the one a value is rounded to, by the middles between
  it and every other word. `Magnitude.rounds_nearestWord`: rounding finds such a word.
* `Binary64.IsNearest` says the same of numbers by distances, and `Binary64.eq_of_isNearest` that
  there is one such number without a sign. `Binary64.isNearest_of_nearest`: a finite result is it.
* `Binary64.nearest_eq_none_iff` is the bound from which on there is no finite result.
-/

namespace LineCalc

/-- A tie goes to the even number. -/
theorem nearestEven_mod_two {num den : Nat} (h : 0 < den)
    (htie : 2 * num = (2 * nearestEven num den + 1) * den ∨
      2 * nearestEven num den * den = 2 * num + den) : nearestEven num den % 2 = 0 := by
  have hd := Nat.div_add_mod num den
  have hr := Nat.mod_lt num h
  unfold nearestEven at htie ⊢
  dsimp only at htie ⊢
  generalize num / den = q at *
  generalize num % den = r at *
  subst hd
  split at htie <;> rename_i hs
  · rw [if_pos hs]
    rcases htie with htie | htie <;> grind
  · rw [if_neg hs]
    rcases htie with htie | htie <;> grind

namespace Magnitude

/-! ## The word of a quotient -/

/-- What is less than half a unit is rounded to zero. -/
theorem nearest_eq_zero_of_lt {num den : Nat} (h : 2 * num < den) :
    nearest num den = some .zero := by
  have hdiv : num / den = 0 := Nat.div_eq_of_lt (by omega)
  have hmod : num % den = num := Nat.mod_eq_of_lt (by omega)
  have hword : nearestWord num den = 0 := by
    simp [nearestWord, nearestEven, hdiv, hmod, h]
  rw [nearest, dif_pos (hword ▸ zero.code_lt)]
  simp only [hword]
  rfl

/-- The scale of a whole number leaves 53 bits of it, unless there are fewer. -/
theorem shiftRight_log2 (n : Nat) :
    (n.log2 - 52 = 0 ∨ 1 <<< 52 ≤ n >>> (n.log2 - 52)) ∧ n >>> (n.log2 - 52) < 1 <<< 53 := by
  have hlog : n < 2 ^ (n.log2 + 1) := Nat.lt_log2_self
  rw [Nat.shiftRight_eq_div_pow, Nat.one_shiftLeft, Nat.one_shiftLeft]
  refine ⟨?_, ?_⟩
  · by_cases hs : n.log2 - 52 = 0
    · exact Or.inl hs
    · have hn : n ≠ 0 := by
        rintro rfl
        exact hs rfl
      refine Or.inr ((Nat.le_div_iff_mul_le (Nat.two_pow_pos _)).mpr ?_)
      rw [← Nat.pow_add, Nat.add_sub_cancel' (by omega)]
      exact Nat.log2_self_le hn
  · rw [Nat.div_lt_iff_lt_mul (Nat.two_pow_pos _), ← Nat.pow_add]
    exact Nat.lt_of_lt_of_le hlog (Nat.pow_le_pow_right (by decide) (by omega))

/-- The scale leaves at most 53 bits of a quotient, and all of them unless it is the least one. -/
theorem nearestWord_spec (num : Nat) {den : Nat} (h : 0 < den) : ∃ scale,
    nearestWord num den = (scale <<< 52) + nearestEven num (den * 2 ^ scale) ∧
      0 < den * 2 ^ scale ∧ (scale = 0 ∨ 1 <<< 52 ≤ num / (den * 2 ^ scale)) ∧
      num / (den * 2 ^ scale) < 1 <<< 53 := by
  refine ⟨(num / den).log2 - 52, ?_, Nat.mul_pos h (Nat.two_pow_pos _), ?_⟩
  · rw [← Nat.shiftLeft_eq den]
    rfl
  · have hq := shiftRight_log2 (num / den)
    rwa [Nat.shiftRight_eq_div_pow, Nat.div_div_eq_div_mul] at hq

/-- A word is the one that `num / den` units are rounded to: the middle to every greater word is not
below the quotient, the middle to every smaller one not above it, and the word is even if one of the
middles is the quotient. -/
structure Rounds (num den code : Nat) : Prop where
  above : ∀ c, code < c → 2 * num ≤ (unitsOf code + unitsOf c) * den
  below : ∀ c, c < code → (unitsOf c + unitsOf code) * den ≤ 2 * num
  even : ∀ c, c ≠ code → 2 * num = (unitsOf code + unitsOf c) * den → code % 2 = 0

section Scaled

variable {scale scaled : Nat} (hlow : scale = 0 ∨ 1 <<< 52 ≤ scaled) (hhigh : scaled ≤ 1 <<< 53)
include hlow hhigh

/-- The next greater word is at least one scaled unit away. -/
theorem le_unitsOf_of_lt {c : Nat} (h : (scale <<< 52) + scaled < c) :
    (scaled + 1) * 2 ^ scale ≤ unitsOf c := by
  refine Nat.le_trans ?_ (unitsOf_strictMono.monotone h)
  by_cases hcarry : scaled = 1 <<< 53
  · subst hcarry
    have hcode : (scale <<< 52) + (1 <<< 53) + 1 = ((scale + 1) <<< 52) + ((1 <<< 52) + 1) := by
      omega
    have hpow : 2 ^ (scale + 1) = 2 * 2 ^ scale := Nat.pow_succ'
    rw [Nat.succ_eq_add_one, hcode, unitsOf_scaled (Or.inr (Nat.le_add_right _ _)) (by decide),
      Nat.shiftLeft_eq _ (scale + 1), hpow, ← Nat.mul_assoc]
    exact Nat.mul_le_mul_right _ (show (1 <<< 53) + 1 ≤ ((1 <<< 52) + 1) * 2 by decide)
  · rw [Nat.succ_eq_add_one, Nat.add_assoc, unitsOf_scaled (by omega) (by omega), Nat.shiftLeft_eq]

/-- The next smaller word is at least one scaled unit away, except at the least of the words that
have all bits. -/
theorem unitsOf_le_of_lt {c : Nat} (h : c < (scale <<< 52) + scaled)
    (hne : scale = 0 ∨ scaled ≠ 1 <<< 52) : unitsOf c + 2 ^ scale ≤ scaled * 2 ^ scale := by
  have hpos : 0 < scaled := by omega
  obtain ⟨scaled, rfl⟩ : ∃ k, scaled = k + 1 := ⟨scaled - 1, by omega⟩
  have hle : unitsOf c ≤ unitsOf ((scale <<< 52) + scaled) :=
    unitsOf_strictMono.monotone (by omega)
  rw [unitsOf_scaled (by omega) (by omega), Nat.shiftLeft_eq] at hle
  rw [Nat.add_one_mul]
  exact Nat.add_le_add_right hle _

/-- Where the words below are closer together than one scaled unit, no quotient is rounded up. -/
theorem unitsOf_le_or_of_lt {num den c : Nat} (hden : 0 < den)
    (hquot : scale = 0 ∨ 1 <<< 52 ≤ num / (den * 2 ^ scale)) (h : c < (scale <<< 52) + scaled) :
    (unitsOf c + 2 ^ scale) * den ≤ scaled * 2 ^ scale * den ∨
      scaled * (den * 2 ^ scale) ≤ num ∧ unitsOf c * den < scaled * 2 ^ scale * den := by
  by_cases hne : scale = 0 ∨ scaled ≠ 1 <<< 52
  · exact Or.inl (Nat.mul_le_mul_right den (unitsOf_le_of_lt hlow hhigh h hne))
  · have hle : scaled ≤ num / (den * 2 ^ scale) := by omega
    have hlt := unitsOf_strictMono h
    rw [unitsOf_scaled hlow hhigh, Nat.shiftLeft_eq] at hlt
    exact Or.inr ⟨Nat.le_trans (Nat.mul_le_mul_right _ hle) (Nat.div_mul_le_self _ _),
      Nat.mul_lt_mul_of_pos_right hlt hden⟩

end Scaled

/-- **Rounding finds the nearest word.** -/
theorem rounds_nearestWord (num : Nat) {den : Nat} (h : 0 < den) :
    Rounds num den (nearestWord num den) := by
  obtain ⟨scale, hword, hpos, hquot, hbits⟩ := nearestWord_spec num h
  obtain ⟨hbelow, habove⟩ := nearestEven_near num hpos
  have heven := @nearestEven_mod_two num _ hpos
  have hge := le_nearestEven num (den * 2 ^ scale)
  have hle := nearestEven_le num (den * 2 ^ scale)
  rw [hword]
  generalize nearestEven num (den * 2 ^ scale) = scaled at *
  have hlow : scale = 0 ∨ 1 <<< 52 ≤ scaled := by omega
  have hhigh : scaled ≤ 1 <<< 53 := by omega
  have hunits := (unitsOf_scaled hlow hhigh).trans (Nat.shiftLeft_eq _ _)
  have hup := fun c hc => Nat.mul_le_mul_right den (@le_unitsOf_of_lt _ _ hlow hhigh c hc)
  have hdown := fun c => @unitsOf_le_or_of_lt _ _ hlow hhigh num den c h hquot
  generalize 2 ^ scale = unit at *
  refine ⟨fun c hc => ?_, fun c hc => ?_, fun c hc htie => ?_⟩
  · have hnext := hup c hc
    rw [hunits]
    linarith
  · rw [hunits]
    rcases hdown c hc with hc | ⟨hnum, hc⟩ <;> linarith
  · rw [hunits] at htie
    have hscaled : scaled % 2 = 0 := by
      rcases Nat.lt_or_gt_of_ne hc with hc | hc
      · rcases hdown c hc with hc | ⟨hnum, hc⟩
        · exact heven (Or.inr (by linarith))
        · linarith
      · have hnext := hup c hc
        exact heven (Or.inl (by linarith))
    omega

theorem rounds_of_nearest {num den : Nat} (h : 0 < den) {m : Magnitude}
    (hm : nearest num den = some m) : Rounds num den m.code := by
  rw [nearest] at hm
  split at hm
  · cases hm
    exact rounds_nearestWord num h
  · cases hm

/-! ## The bound of the finite results -/

/-- A quotient has no finite result exactly if it is not below the middle between the greatest word
of a magnitude and the next one. -/
theorem nearest_eq_none_iff (num : Nat) {den : Nat} (h : 0 < den) : nearest num den = none ↔
    (unitsOf (2047 <<< 52 - 1) + unitsOf (2047 <<< 52)) * den ≤ 2 * num := by
  have hrounds := rounds_nearestWord num h
  rw [nearest]
  generalize nearestWord num den = code at hrounds
  constructor
  · intro hnone
    have hcode : 2047 <<< 52 ≤ code := by
      rw [← Nat.not_lt]
      intro hlt
      rw [dif_pos hlt] at hnone
      cases hnone
    refine Nat.le_trans (Nat.mul_le_mul_right _ (Nat.add_le_add_left ?_ _))
      (hrounds.below (2047 <<< 52 - 1) (by omega))
    exact unitsOf_strictMono.monotone hcode
  · intro hle
    refine dif_neg fun hlt => ?_
    -- The word below the bound is odd, so a quotient in the middle is not rounded down to it.
    have hmono : unitsOf code ≤ unitsOf (2047 <<< 52 - 1) :=
      unitsOf_strictMono.monotone (by omega)
    have habove := hrounds.above _ hlt
    have hsum : unitsOf (2047 <<< 52 - 1) + unitsOf (2047 <<< 52) ≤
        unitsOf code + unitsOf (2047 <<< 52) :=
      Nat.le_of_mul_le_mul_right (Nat.le_trans hle habove) h
    obtain rfl : code = 2047 <<< 52 - 1 := unitsOf_strictMono.injective (by omega)
    have heven := hrounds.even _ (by decide) (Nat.le_antisymm habove hle)
    revert heven
    decide

/-! ## Distances -/

/-- A word that a quotient is rounded to is not farther from the quotient than any other number: the
middle between both lies on the far side of the quotient, or it is the quotient and the word is
even. -/
theorem Rounds.middle {num den code : Nat} (hden : 0 < den) (hrounds : Rounds num den code)
    {y : Binary64} (hne : y.units ≠ unitsOf code) :
    ((unitsOf code : Int) < y.units ∧ 2 * (num : Int) ≤ (unitsOf code + y.units) * den ∨
      y.units < unitsOf code ∧ (unitsOf code + y.units) * den ≤ 2 * (num : Int)) ∧
    (2 * (num : Int) = (unitsOf code + y.units) * den → code % 2 = 0) := by
  rcases y.exists_units_eq_unitsOf with ⟨c, hc⟩ | hneg
  · rw [hc] at hne ⊢
    have hcode : c ≠ code := fun h => hne (congrArg _ (congrArg unitsOf h))
    refine ⟨?_, fun htie => hrounds.even c hcode (by exact_mod_cast htie)⟩
    rcases Nat.lt_or_gt_of_ne hcode with hlt | hlt
    · refine Or.inr ⟨by exact_mod_cast unitsOf_strictMono hlt, ?_⟩
      have hbelow := hrounds.below c hlt
      rw [Nat.add_comm] at hbelow
      exact_mod_cast hbelow
    · exact Or.inl ⟨by exact_mod_cast unitsOf_strictMono hlt, by exact_mod_cast hrounds.above c hlt⟩
  · -- Zero is nearer than a number below zero.
    have hle : (unitsOf code : Int) * den ≤ 2 * num := by
      by_cases hcode : code = 0
      · subst hcode
        rw [unitsOf_zero]
        omega
      · have hbelow := hrounds.below 0 (by omega)
        rw [unitsOf_zero, Nat.zero_add] at hbelow
        exact_mod_cast hbelow
    have hlt : (unitsOf code + y.units) * den < 2 * (num : Int) := by
      have hless := Int.mul_neg_of_neg_of_pos hneg (Int.natCast_pos.mpr hden)
      rw [Int.add_mul]
      omega
    exact ⟨Or.inr ⟨by omega, Int.le_of_lt hlt⟩, fun htie => by omega⟩

end Magnitude

namespace Binary64

/-- A number is the nearest one to a value: it is finite, no finite number is nearer, and its word
is even if a number with another value is just as near. -/
structure IsNearest (q : ℚ) (x : Binary64) : Prop where
  finite : x.isFinite = true
  nearest : ∀ y : Binary64, y.isFinite = true → |q - x.value| ≤ |q - y.value|
  even : ∀ y : Binary64, y.isFinite = true → y.value ≠ x.value →
    |q - y.value| = |q - x.value| → x.hasEvenWord = true

/-- Two words next to each other are not both even, so no two of them tie. -/
theorem not_lt_of_isNearest {q : ℚ} {m n : Magnitude} (hm : IsNearest q (finite false m))
    (hn : IsNearest q (finite false n)) : ¬ m.code < n.code := by
  intro hlt
  have htie := le_antisymm (hm.nearest _ hn.finite) (hn.nearest _ hm.finite)
  have hmn := value_lt_of_code_lt hlt
  have hmeven := hm.even _ hn.finite hmn.ne' htie.symm
  have hneven := hn.even _ hm.finite hmn.ne htie
  simp only [hasEvenWord, beq_iff_eq] at hmeven hneven
  let between : Magnitude := ⟨m.code + 1, Nat.lt_of_le_of_lt hlt n.code_lt⟩
  have hleft : (finite false m).value < (finite false between).value :=
    value_lt_of_code_lt (Nat.lt_succ_self _)
  have hright : (finite false between).value < (finite false n).value :=
    value_lt_of_code_lt (show m.code + 1 < n.code by omega)
  have hle := hm.nearest (finite false between) rfl
  rcases abs_eq_abs.mp htie with hsame | hmiddle
  · linarith
  · rw [abs_of_pos (show 0 < q - (finite false m).value by linarith)] at hle
    have hnearer : |q - (finite false between).value| < q - (finite false m).value :=
      abs_lt.mpr ⟨by linarith, by linarith⟩
    linarith

/-- **There is one nearest number** without a sign. -/
theorem eq_of_isNearest {q : ℚ} {x y : Binary64} (hx : x.IsNearest q) (hy : y.IsNearest q)
    (hxs : x.isNegative = false) (hys : y.isNegative = false) : x = y := by
  match x, y, hx.finite, hy.finite, hxs, hys with
  | finite false m, finite false n, _, _, _, _ =>
    have hcode : m.code = n.code := Nat.le_antisymm (not_lt.mp (not_lt_of_isNearest hy hx))
      (not_lt.mp (not_lt_of_isNearest hx hy))
    cases m
    cases n
    cases hcode
    rfl

/-- Two distances compare as the middle says: the difference of their squares. -/
theorem sq_sub_sq_distance {num den : Nat} (hden : 0 < den) (x y : Binary64) :
    (num / den / Magnitude.unitsPerOne - y.value) ^ 2 -
        (num / den / Magnitude.unitsPerOne - x.value) ^ 2 =
      ((y.units - x.units) * ((x.units + y.units) * den - 2 * num) : Int) /
        ((Magnitude.unitsPerOne : ℚ) ^ 2 * den) := by
  have hd : (den : ℚ) ≠ 0 := Nat.cast_ne_zero.mpr (Nat.ne_of_gt hden)
  have hu := Magnitude.cast_unitsPerOne_pos.ne'
  unfold value
  generalize (Magnitude.unitsPerOne : ℚ) = u at hu
  push_cast
  field_simp
  ring

/-- **A finite result is the nearest number.** -/
theorem isNearest_of_nearest {num den : Nat} (hden : 0 < den) {m : Magnitude}
    (h : Magnitude.nearest num den = some m) :
    IsNearest (num / den / Magnitude.unitsPerOne) (finite false m) := by
  have hrounds := Magnitude.rounds_of_nearest hden h
  have hpos : (0 : ℚ) < (Magnitude.unitsPerOne : ℚ) ^ 2 * den :=
    mul_pos (pow_pos Magnitude.cast_unitsPerOne_pos 2) (Nat.cast_pos.mpr hden)
  have hunits : (finite false m).units = Magnitude.unitsOf m.code := rfl
  refine ⟨rfl, fun y _ => ?_, fun y _ hvalue htie => ?_⟩
  · rw [← sq_le_sq, ← sub_nonneg, sq_sub_sq_distance hden]
    refine div_nonneg (Int.cast_nonneg ?_) hpos.le
    by_cases hne : y.units = (finite false m).units
    · rw [hne, sub_self, zero_mul]
    · rw [hunits] at hne ⊢
      rcases (hrounds.middle hden hne).1 with ⟨hlt, hle⟩ | ⟨hlt, hle⟩
      · exact Int.mul_nonneg (by omega) (by omega)
      · exact Int.mul_nonneg_of_nonpos_of_nonpos (by omega) (by omega)
  · have hne : y.units ≠ (finite false m).units := by
      intro heq
      rw [value, value, heq] at hvalue
      exact hvalue rfl
    rw [← sq_eq_sq_iff_abs_eq_abs, ← sub_eq_zero, sq_sub_sq_distance hden,
      div_eq_zero_iff, or_iff_left hpos.ne', Int.cast_eq_zero, Int.mul_eq_zero] at htie
    rw [hunits] at hne htie
    have heven := (hrounds.middle hden hne).2 (by omega)
    simp [hasEvenWord, heven]

/-- The middle between the greatest finite number and the one that would come next. -/
def overflowBound : ℚ := 2 ^ 1024 - 2 ^ 970

theorem overflowBound_mul : (2 : ℚ) * (overflowBound * Magnitude.unitsPerOne) =
    ((Magnitude.unitsOf (2047 <<< 52 - 1) + Magnitude.unitsOf (2047 <<< 52) : Nat) : ℚ) := by
  have h : 2 * (2 ^ 1024 * Magnitude.unitsPerOne) =
      Magnitude.unitsOf (2047 <<< 52 - 1) + Magnitude.unitsOf (2047 <<< 52) +
        2 * (2 ^ 970 * Magnitude.unitsPerOne) := by
    decide +kernel
  have hcast := congrArg (fun n : Nat => (n : ℚ)) h
  simp only [Nat.cast_mul, Nat.cast_add, Nat.cast_pow, Nat.cast_ofNat] at hcast
  rw [overflowBound, sub_mul, mul_sub, hcast, Nat.cast_add, add_sub_cancel_right]

/-- **There is no finite result exactly from the bound on.** -/
theorem nearest_eq_none_iff (num : Nat) {den : Nat} (hden : 0 < den) :
    Magnitude.nearest num den = none ↔ overflowBound ≤ num / den / Magnitude.unitsPerOne := by
  have hd : (0 : ℚ) < den := Nat.cast_pos.mpr hden
  have hcast (a b : Nat) : a ≤ b ↔ (a : ℚ) ≤ b := Nat.cast_le.symm
  rw [Magnitude.nearest_eq_none_iff num hden, hcast, Nat.cast_mul, Nat.cast_mul,
    ← overflowBound_mul, le_div_iff₀ Magnitude.cast_unitsPerOne_pos, le_div_iff₀ hd,
    Nat.cast_ofNat, mul_assoc]
  exact mul_le_mul_iff_right₀ two_pos

end Binary64

end LineCalc
