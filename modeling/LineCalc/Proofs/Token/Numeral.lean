import LineCalc.Decimal
import LineCalc.Proofs.Text.Words
import LineCalc.Token.Lexer

/-!
# Written numbers are read back

A decimal by position is a numeral, and the longest numeral at the front of a text is that numeral
if the text goes on with a space, with a closing parenthesis, or not at all.

* `AtBoundary` says that of what follows, and `AtBoundary.endsRun` is what it is for: a run of
  characters of a class ends there. `takeWhile_append_of_endsRun`: such a run is taken as a whole.
* `Numeral.Plain` are the numerals with a digit before the point and without an exponent.
  `Numeral.Plain.read?_chars`: such a numeral is read back from its text.
* `Decimal.numeral` is the numeral that `Decimal.plain` writes. Its value is not always written in
  the same way, because zeros before the point count as digits; `Decimal.nearest_decimal_numeral`
  says that it reads as the same magnitude.
* `numeralToken_shortest`: the shortest decimal of a magnitude has the token of that magnitude.
-/

namespace LineCalc

/-! ## Where a numeral ends -/

/-- The text goes on with a space, with a closing parenthesis, or not at all. -/
def AtBoundary (rest : List Char) : Prop := ∀ c, rest.head? = some c → c = ' ' ∨ c = ')'

theorem atBoundary_nil : AtBoundary [] := fun _ h => nomatch h

theorem atBoundary_space (rest : List Char) : AtBoundary (' ' :: rest) := by
  intro c h
  exact Or.inl (Option.some.inj h).symm

theorem atBoundary_closing (rest : List Char) : AtBoundary (')' :: rest) := by
  intro c h
  exact Or.inr (Option.some.inj h).symm

theorem AtBoundary.endsRun {p : Char → Bool} {rest : List Char} (h : AtBoundary rest)
    (hs : p ' ' = false) (hc : p ')' = false) : EndsRun p rest := by
  intro c hhead
  rcases h c hhead with rfl | rfl
  · exact hs
  · exact hc

namespace Numeral

/-! ## Numerals that are read back -/

/-- A digit before the point, a digit behind the point if there is one, and no exponent. -/
structure Plain (n : Numeral) : Prop where
  whole_ne_nil : n.whole ≠ []
  whole_digits : ∀ c ∈ n.whole, c.isDigit = true
  fraction_ne_nil : ∀ digits, n.fraction = some digits → digits ≠ []
  fraction_digits : ∀ digits, n.fraction = some digits → ∀ c ∈ digits, c.isDigit = true
  exponent_eq_none : n.exponent = none

theorem readExponent_of_atBoundary {rest : List Char} (h : AtBoundary rest) :
    readExponent rest = (none, rest) := by
  have hr : Exponent.read? rest = none := by
    cases rest with
    | nil => rfl
    | cons c rest =>
      have hmark : ¬ (c = 'e' ∨ c = 'E') := by
        rcases h c rfl with rfl | rfl
        · decide
        · decide
      exact if_neg hmark
  unfold readExponent
  rw [hr]

theorem readFraction_of_atBoundary {rest : List Char} (h : AtBoundary rest) :
    readFraction rest = (none, rest) := by
  cases rest with
  | nil => rfl
  | cons c rest =>
    rcases h c rfl with rfl | rfl
    · rfl
    · rfl

theorem readFraction_point {digits rest : List Char} (hne : digits ≠ [])
    (hd : ∀ c ∈ digits, c.isDigit = true) (h : AtBoundary rest) :
    readFraction ('.' :: (digits ++ rest)) = (some digits, rest) := by
  have ht := takeWhile_append_of_endsRun hd (h.endsRun (by decide) (by decide))
  have hr := dropWhile_append_of_endsRun hd (h.endsRun (by decide) (by decide))
  simp only [readFraction]
  rw [ht, hr]
  split
  · contradiction
  · rfl

/-- A plain numeral is read back from its text. -/
theorem Plain.read?_chars {n : Numeral} (hn : n.Plain) {rest : List Char} (h : AtBoundary rest) :
    read? (n.chars ++ rest) = some (n, rest) := by
  obtain ⟨whole, fraction, exponent⟩ := n
  obtain ⟨hne, hw, hfne, hf, he⟩ := hn
  simp only at hne hw hfne hf he
  subst he
  cases fraction with
  | none =>
    have ht := takeWhile_append_of_endsRun hw (h.endsRun (by decide) (by decide))
    have hr := dropWhile_append_of_endsRun hw (h.endsRun (by decide) (by decide))
    simp only [chars, fractionChars, exponentChars, List.append_nil, read?]
    rw [ht, hr, readFraction_of_atBoundary h]
    simp only [readExponent_of_atBoundary h]
    exact if_neg fun hc => hne hc.1
  | some digits =>
    -- The point ends the run of digits before it.
    have ht : (whole ++ '.' :: (digits ++ rest)).takeWhile Char.isDigit = whole := by
      rw [List.takeWhile_append_of_pos hw, List.takeWhile_cons_of_neg (by decide), List.append_nil]
    have hr : (whole ++ '.' :: (digits ++ rest)).dropWhile Char.isDigit =
        '.' :: (digits ++ rest) := by
      rw [List.dropWhile_append_of_pos hw, List.dropWhile_cons_of_neg (by decide)]
    simp only [chars, fractionChars, exponentChars, List.append_nil, List.append_assoc,
      List.cons_append, read?]
    rw [ht, hr, readFraction_point (hfne digits rfl) (hf digits rfl) h]
    simp only [readExponent_of_atBoundary h]
    exact if_neg fun hc => hne hc.1

end Numeral

/-! ## Decimals by position -/

namespace Decimal

/-- The numeral that a decimal by position is. -/
def numeral (d : Decimal) : Numeral :=
  match d.exponent with
  | .ofNat zeros => ⟨d.figures ++ List.replicate zeros '0', none, none⟩
  | .negSucc n =>
    let places := n + 1
    if places < d.figures.length then
      ⟨d.figures.take (d.figures.length - places),
        some (d.figures.drop (d.figures.length - places)), none⟩
    else ⟨['0'], some (List.replicate (places - d.figures.length) '0' ++ d.figures), none⟩

theorem figures_ne_nil (d : Decimal) : d.figures ≠ [] := Nat.toDigits_ne_nil

theorem isDigit_of_mem_figures {d : Decimal} {c : Char} (h : c ∈ d.figures) : c.isDigit = true :=
  Nat.isDigit_of_mem_toDigits (by decide) (by decide) h

theorem isDigit_of_mem_replicate {n : Nat} {c : Char} (h : c ∈ List.replicate n '0') :
    c.isDigit = true := by
  rw [List.eq_of_mem_replicate h]
  rfl

theorem ofDigitChars_figures (d : Decimal) : Nat.ofDigitChars 10 d.figures 0 = d.digits :=
  Nat.ofDigitChars_ten_toDigits

theorem chars_numeral (d : Decimal) : d.numeral.chars = d.plain := by
  obtain ⟨digits, exponent⟩ := d
  cases exponent with
  | ofNat zeros =>
    simp [numeral, plain, Numeral.chars, Numeral.fractionChars, Numeral.exponentChars]
  | negSucc n =>
    simp only [numeral, plain]
    split
    · simp [Numeral.chars, Numeral.fractionChars, Numeral.exponentChars]
    · simp [Numeral.chars, Numeral.fractionChars, Numeral.exponentChars]

theorem numeral_plain (d : Decimal) : d.numeral.Plain := by
  obtain ⟨digits, exponent⟩ := d
  cases exponent with
  | ofNat zeros =>
    refine ⟨?_, ?_, nofun, nofun, rfl⟩
    · exact List.append_ne_nil_of_left_ne_nil (figures_ne_nil _) _
    · intro c hc
      rcases List.mem_append.mp hc with hc | hc
      · exact isDigit_of_mem_figures hc
      · exact isDigit_of_mem_replicate hc
  | negSucc n =>
    simp only [numeral]
    generalize hd : (⟨digits, .negSucc n⟩ : Decimal) = d
    split
    · rename_i hlt
      refine ⟨?_, ?_, ?_, ?_, rfl⟩
      · exact List.length_pos_iff.mp (by rw [List.length_take]; omega)
      · exact fun c hc => isDigit_of_mem_figures (List.mem_of_mem_take hc)
      · rintro _ ⟨⟩
        exact List.length_pos_iff.mp (by rw [List.length_drop]; omega)
      · rintro _ ⟨⟩
        exact fun c hc => isDigit_of_mem_figures (List.mem_of_mem_drop hc)
    · refine ⟨List.cons_ne_nil _ _, ?_, ?_, ?_, rfl⟩
      · intro c hc
        exact isDigit_of_mem_replicate (n := 1) hc
      · rintro _ ⟨⟩
        exact List.append_ne_nil_of_right_ne_nil _ d.figures_ne_nil
      · rintro _ ⟨⟩
        intro c hc
        rcases List.mem_append.mp hc with hc | hc
        · exact isDigit_of_mem_replicate hc
        · exact isDigit_of_mem_figures hc

/-- With digits behind the point, the numeral has the value of the decimal as it is. -/
theorem decimal_numeral_negSucc (digits n : Nat) :
    (numeral ⟨digits, .negSucc n⟩).decimal = ⟨digits, .negSucc n⟩ := by
  have hv := ofDigitChars_figures ⟨digits, .negSucc n⟩
  simp only [numeral]
  generalize (⟨digits, .negSucc n⟩ : Decimal).figures = figures at hv
  split
  · rename_i hlt
    simp only [Numeral.decimal, Option.getD_some, List.take_append_drop, Option.map_none,
      Option.getD_none, List.length_drop]
    rw [hv]
    congr 1
    omega
  · rename_i hle
    have hz : Nat.ofDigitChars 10 ['0'] 0 = 0 := rfl
    simp only [Numeral.decimal, Option.getD_some, Option.map_none, Option.getD_none,
      List.length_append, List.length_replicate, Nat.ofDigitChars_append,
      Nat.ofDigitChars_replicate_zero, hz, Nat.mul_zero]
    rw [hv]
    congr 1
    omega

/-- With zeros behind the digits, the numeral has these zeros among its digits. -/
theorem decimal_numeral_ofNat (digits zeros : Nat) :
    (numeral ⟨digits, .ofNat zeros⟩).decimal = ⟨digits * powerOfTen zeros, 0⟩ := by
  have hv := ofDigitChars_figures ⟨digits, .ofNat zeros⟩
  simp only [numeral, Numeral.decimal, Option.getD_none, List.append_nil, Option.map_none,
    Nat.ofDigitChars_append, Nat.ofDigitChars_replicate_zero]
  rw [hv, Nat.mul_comm]
  rfl

theorem ratio_shift_zeros (digits zeros : Nat) :
    ratio ⟨digits * powerOfTen zeros, 0⟩ = ratio ⟨digits, .ofNat zeros⟩ := by
  have hz : (-Int.ofNat zeros).toNat = 0 := Int.toNat_of_nonpos (by simp)
  unfold ratio
  simp only [hz]
  generalize Magnitude.unitsPerOne = one
  simp only [Int.toNat_zero, Int.neg_zero, powerOfTen_zero, Nat.mul_one, Int.ofNat_eq_natCast,
    Int.toNat_natCast]

theorem nearest_of_digits_eq_zero {d : Decimal} (hd : d.digits = 0) : d.nearest = some .zero := by
  unfold nearest
  rw [if_pos hd]

theorem nearest_of_exponent_nonneg {d : Decimal} (hd : d.digits ≠ 0) (he : 0 ≤ d.exponent)
    (hle : d.exponent ≤ 400) : d.nearest = Magnitude.nearest d.ratio.1 d.ratio.2 := by
  unfold nearest
  rw [if_neg hd, if_neg (by omega), if_neg (by omega)]

theorem exponent_le_of_nearest {d : Decimal} {m : Magnitude} (hd : d.digits ≠ 0)
    (h : d.nearest = some m) : d.exponent ≤ 400 := by
  rw [← Int.not_lt]
  intro hlt
  unfold nearest at h
  rw [if_neg hd, if_pos hlt] at h
  cases h

/-- Zeros may be counted among the digits. -/
theorem nearest_shift_zeros {digits zeros : Nat} {m : Magnitude}
    (h : nearest ⟨digits, .ofNat zeros⟩ = some m) :
    nearest ⟨digits * powerOfTen zeros, 0⟩ = some m := by
  by_cases hd : digits = 0
  · rw [nearest_of_digits_eq_zero hd] at h
    rw [nearest_of_digits_eq_zero (by rw [hd, Nat.zero_mul]), h]
  · have hz := exponent_le_of_nearest hd h
    have hd' : digits * powerOfTen zeros ≠ 0 :=
      Nat.ne_of_gt (Nat.mul_pos (Nat.pos_of_ne_zero hd) (powerOfTen_pos zeros))
    rw [nearest_of_exponent_nonneg hd (Int.natCast_nonneg _) hz] at h
    have hmax : (0 : Int) ≤ 400 := by decide
    rw [nearest_of_exponent_nonneg hd' (Int.le_refl 0) hmax, ratio_shift_zeros, h]

/-- The numeral reads as the magnitude that the decimal reads as. -/
theorem nearest_decimal_numeral {d : Decimal} {m : Magnitude} (h : d.nearest = some m) :
    d.numeral.decimal.nearest = some m := by
  obtain ⟨digits, exponent⟩ := d
  cases exponent with
  | ofNat zeros =>
    rw [decimal_numeral_ofNat]
    exact nearest_shift_zeros h
  | negSucc n =>
    rw [decimal_numeral_negSucc]
    exact h

end Decimal

/-- The shortest decimal of a magnitude has the token of that magnitude. -/
theorem numeralToken_shortest (m : Magnitude) (line : Nat) :
    numeralToken (Decimal.shortest m).numeral line = .ok (.number (.finite false m)) := by
  unfold numeralToken
  rw [Decimal.nearest_decimal_numeral (Decimal.nearest_shortest m)]

end LineCalc
