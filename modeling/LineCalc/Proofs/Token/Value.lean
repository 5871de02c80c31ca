import LineCalc.Proofs.Decimal.Nearest
import LineCalc.Proofs.Token.LongestMatch

/-!
# Values of number literals

A number literal is read as the number nearest to its value, or it is out of range.

* `Decimal.value_pointed` is the value of a literal with a point, by its parts.
* `tokenize_of_means_token` and `tokenize_of_means_outOfRange`: a text that a rule matches as a
  whole is one token, or one number out of range.
* `tokenize_number_literal` is the statement for every number literal.
-/

namespace LineCalc

/-! ## The value of the parts -/

/-- The digits behind a point count tenths, hundredths and so on, and the exponent moves the
point. -/
theorem Decimal.value_pointed (whole fraction : List Char) (power : Int) :
    (⟨Nat.ofDigitChars 10 (whole ++ fraction) 0, power - fraction.length⟩ : Decimal).value =
      (Nat.ofDigitChars 10 whole 0 + Nat.ofDigitChars 10 fraction 0 / 10 ^ fraction.length) *
        10 ^ power := by
  have hten : (10 : ℚ) ^ fraction.length ≠ 0 := pow_ne_zero _ (by norm_num)
  rw [value, Nat.ofDigitChars_append, Nat.ofDigitChars_eq_ofDigitChars_zero,
    zpow_sub₀ (by norm_num), zpow_natCast]
  push_cast
  field_simp

/-! ## Texts that are matched as a whole -/

variable {source : String}

/-- Nothing longer than the whole text can be matched. -/
theorem Means.longestMatch {cs : List Char} {m : Meaning} (h : Means cs m) :
    LongestMatch (cs ++ []) cs m where
  front := List.prefix_append cs []
  means := h
  longest other _ hfront _ := by
    rw [List.append_nil] at hfront
    exact hfront.length_le

theorem tokenize_of_means_token {t : Token} (h : Means source.toList (.token t)) (line : Nat) :
    tokenize source line = .ok [⟨t, line⟩] := by
  have hlexes := Lexes.token h.longestMatch .done
  rw [List.append_nil] at hlexes
  exact tokenizeChars_of_lexes hlexes

theorem tokenize_of_means_outOfRange (h : Means source.toList .outOfRange) (line : Nat) :
    tokenize source line = .error (.outOfRange source line) := by
  have hfails : Fails line _ _ := .outOfRange h.longestMatch
  rw [List.append_nil, String.ofList_toList] at hfails
  exact tokenizeChars_of_fails hfails

/-! ## Number literals -/

/-- **A number literal means its value.** Below the bound it is the token of a number: the only one
that is nearest to the value, ties to even, and has no sign. From the bound on it is out of range,
and the error names the whole literal. It is never an unexpected token. -/
theorem tokenize_number_literal {d : Decimal} (h : IsNumber source.toList d) (line : Nat) :
    (d.value < Binary64.overflowBound →
      ∃ v : Binary64, (∀ w : Binary64, w.IsNearest d.value ∧ w.isNegative = false ↔ w = v) ∧
        tokenize source line = .ok [⟨.number v, line⟩]) ∧
    (Binary64.overflowBound ≤ d.value →
      tokenize source line = .error (.outOfRange source line)) ∧
    ∀ token at', tokenize source line ≠ .error (.unexpectedToken token at') := by
  cases hd : d.nearest with
  | some m =>
    have hlt : d.value < Binary64.overflowBound := by
      rw [← not_le, ← d.nearest_eq_none_iff, hd]
      exact Option.some_ne_none m
    have hnearest := d.isNearest_of_nearest hd
    have htoken := tokenize_of_means_token (.number h hd) line
    refine ⟨fun _ => ⟨.finite false m, fun w => ⟨?_, ?_⟩, htoken⟩,
      fun hle => absurd hlt (not_lt.mpr hle), fun _ _ => ?_⟩
    · rintro ⟨hw, hsign⟩
      exact Binary64.eq_of_isNearest hw hnearest hsign rfl
    · rintro rfl
      exact ⟨hnearest, rfl⟩
    · rw [htoken]
      exact nofun
  | none =>
    have hle := d.nearest_eq_none_iff.mp hd
    have herror := tokenize_of_means_outOfRange (.outOfRange h hd) line
    refine ⟨fun hlt => absurd hlt (not_lt.mpr hle), fun _ => herror, fun _ _ => ?_⟩
    rw [herror]
    exact nofun

/-- Two literals next to the bound: the first one is read, the second one is out of range. -/
theorem tokenize_number_literal_next_to_bound :
    (∃ v : Binary64,
      (∀ w : Binary64, w.IsNearest (⟨17976931348623158079, 289⟩ : Decimal).value ∧
        w.isNegative = false ↔ w = v) ∧
      tokenize "17976931348623158079e289" 1 = .ok [⟨.number v, 1⟩]) ∧
    tokenize "1797693134862315808e290" 1 = .error (.outOfRange "1797693134862315808e290" 1) := by
  have hformed : (⟨'e', none, ['2', '8', '9']⟩ : Exponent).Formed :=
    ⟨Or.inl rfl, Or.inl rfl, by decide, List.all_eq_true.mp rfl⟩
  have hformed' : (⟨'e', none, ['2', '9', '0']⟩ : Exponent).Formed :=
    ⟨Or.inl rfl, Or.inl rfl, by decide, List.all_eq_true.mp rfl⟩
  have hbelow : IsNumber "17976931348623158079e289".toList ⟨17976931348623158079, 289⟩ :=
    isNumber_iff.mpr ⟨⟨"17976931348623158079".toList, none, some ⟨'e', none, ['2', '8', '9']⟩⟩,
      ⟨List.all_eq_true.mp rfl, nofun, fun _ h => Option.some.inj h ▸ hformed, by decide⟩,
      by decide, by decide⟩
  have habove : IsNumber "1797693134862315808e290".toList ⟨1797693134862315808, 290⟩ :=
    isNumber_iff.mpr ⟨⟨"1797693134862315808".toList, none, some ⟨'e', none, ['2', '9', '0']⟩⟩,
      ⟨List.all_eq_true.mp rfl, nofun, fun _ h => Option.some.inj h ▸ hformed', by decide⟩,
      by decide, by decide⟩
  refine ⟨(tokenize_number_literal hbelow 1).1 ?_, (tokenize_number_literal habove 1).2.1 ?_⟩
  · exact (Decimal.value_lt_overflowBound_iff _ 289).mpr (by decide +kernel)
  · exact not_lt.mp fun h =>
      absurd ((Decimal.value_lt_overflowBound_iff _ 290).mp h) (by decide +kernel)

end LineCalc
