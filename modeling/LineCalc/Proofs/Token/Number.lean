import LineCalc.Token.Lexer

/-!
# Number literals

What a number literal is, said without a reader: one of four forms of text, each with its exact
value.

* `IsDigits` are the runs of digits, `IsPower` the exponents and `IsNumber` the number literals.
* `Exponent.Formed` and `Numeral.Formed` say the same of the parts that a numeral is held as.
  `isNumber_iff`: the number literals are the texts of the formed numerals, with their values.
* `Numeral.formed_of_read?`: what is read at the front of a text is formed.
* `Numeral.Formed.exists_read?_append`: at the front of a text that begins with a number literal, at
  least that literal is read, and exactly that one if it is the whole text.
-/

namespace LineCalc

/-! ## The four forms -/

/-- A run of decimal digits. -/
def IsDigits (cs : List Char) : Prop := cs ≠ [] ∧ ∀ c ∈ cs, c.isDigit = true

/-- A text that is an exponent, and its value. -/
inductive IsPower : List Char → Int → Prop
  | unsigned {mark : Char} {digits : List Char} (hm : mark = 'e' ∨ mark = 'E')
      (hd : IsDigits digits) : IsPower (mark :: digits) (Nat.ofDigitChars 10 digits 0)
  | plus {mark : Char} {digits : List Char} (hm : mark = 'e' ∨ mark = 'E')
      (hd : IsDigits digits) : IsPower (mark :: '+' :: digits) (Nat.ofDigitChars 10 digits 0)
  | minus {mark : Char} {digits : List Char} (hm : mark = 'e' ∨ mark = 'E')
      (hd : IsDigits digits) : IsPower (mark :: '-' :: digits) (-Nat.ofDigitChars 10 digits 0)

/-- An exponent that may be missing; without one, the power is zero. -/
def IsPowerOrNothing (cs : List Char) (power : Int) : Prop :=
  (cs = [] ∧ power = 0) ∨ IsPower cs power

/-- A text that is a number literal, and its exact value: with digits on both sides of a point, with
digits behind a point only, with an exponent and no point, or with digits alone. -/
inductive IsNumber : List Char → Decimal → Prop
  | pointed {whole fraction rest : List Char} {power : Int} (hw : IsDigits whole)
      (hf : IsDigits fraction) (hp : IsPowerOrNothing rest power) :
      IsNumber (whole ++ '.' :: fraction ++ rest)
        ⟨Nat.ofDigitChars 10 (whole ++ fraction) 0, power - fraction.length⟩
  | fractional {fraction rest : List Char} {power : Int} (hf : IsDigits fraction)
      (hp : IsPowerOrNothing rest power) :
      IsNumber ('.' :: fraction ++ rest)
        ⟨Nat.ofDigitChars 10 fraction 0, power - fraction.length⟩
  | scaled {whole rest : List Char} {power : Int} (hw : IsDigits whole) (hp : IsPower rest power) :
      IsNumber (whole ++ rest) ⟨Nat.ofDigitChars 10 whole 0, power⟩
  | whole {whole : List Char} (hw : IsDigits whole) :
      IsNumber whole ⟨Nat.ofDigitChars 10 whole 0, 0⟩

/-! ## Formed numerals -/

/-- The parts of an exponent are what they are meant to be. -/
structure Exponent.Formed (e : Exponent) : Prop where
  mark : e.mark = 'e' ∨ e.mark = 'E'
  sign : e.sign = none ∨ e.sign = some '+' ∨ e.sign = some '-'
  digits : IsDigits e.digits

/-- The parts of a numeral are what they are meant to be. -/
structure Numeral.Formed (n : Numeral) : Prop where
  whole : ∀ c ∈ n.whole, c.isDigit = true
  fraction : ∀ digits, n.fraction = some digits → IsDigits digits
  exponent : ∀ e, n.exponent = some e → e.Formed
  ne_nil : ¬ (n.whole = [] ∧ n.fraction = none)

theorem isPower_iff {cs : List Char} {power : Int} :
    IsPower cs power ↔ ∃ e : Exponent, e.Formed ∧ e.chars = cs ∧ e.value = power := by
  constructor
  · rintro (⟨hm, hd⟩ | ⟨hm, hd⟩ | ⟨hm, hd⟩)
    · exact ⟨⟨_, none, _⟩, ⟨hm, Or.inl rfl, hd⟩, rfl, rfl⟩
    · exact ⟨⟨_, some '+', _⟩, ⟨hm, Or.inr (Or.inl rfl), hd⟩, rfl, rfl⟩
    · exact ⟨⟨_, some '-', _⟩, ⟨hm, Or.inr (Or.inr rfl), hd⟩, rfl, rfl⟩
  · rintro ⟨⟨mark, sign, digits⟩, ⟨hm, hs, hd⟩, rfl, rfl⟩
    simp only at hm hs hd
    rcases hs with rfl | rfl | rfl
    · exact .unsigned hm hd
    · exact .plus hm hd
    · exact .minus hm hd

theorem isPowerOrNothing_iff {cs : List Char} {power : Int} :
    IsPowerOrNothing cs power ↔ ∃ exponent : Option Exponent,
      (∀ e, exponent = some e → e.Formed) ∧ Numeral.exponentChars exponent = cs ∧
        (exponent.map Exponent.value).getD 0 = power := by
  constructor
  · rintro (⟨rfl, rfl⟩ | hp)
    · exact ⟨none, nofun, rfl, rfl⟩
    · obtain ⟨e, he, rfl, rfl⟩ := isPower_iff.mp hp
      exact ⟨some e, fun _ h => Option.some.inj h ▸ he, rfl, rfl⟩
  · rintro ⟨_ | e, he, rfl, rfl⟩
    · exact Or.inl ⟨rfl, rfl⟩
    · exact Or.inr (isPower_iff.mpr ⟨e, he e rfl, rfl, rfl⟩)

/-- **The number literals are the texts of the formed numerals**, with their values. -/
theorem isNumber_iff {cs : List Char} {d : Decimal} :
    IsNumber cs d ↔ ∃ n : Numeral, n.Formed ∧ n.chars = cs ∧ n.decimal = d := by
  constructor
  · rintro (⟨hw, hf, hp⟩ | ⟨hf, hp⟩ | ⟨hw, hp⟩ | hw)
    · obtain ⟨exponent, he, rfl, rfl⟩ := isPowerOrNothing_iff.mp hp
      exact ⟨⟨_, some _, exponent⟩, ⟨hw.2, fun _ h => Option.some.inj h ▸ hf, he,
        fun h => hw.1 h.1⟩, rfl, rfl⟩
    · obtain ⟨exponent, he, rfl, rfl⟩ := isPowerOrNothing_iff.mp hp
      exact ⟨⟨[], some _, exponent⟩, ⟨List.forall_mem_nil _, fun _ h => Option.some.inj h ▸ hf, he,
        fun h => Option.some_ne_none _ h.2⟩, rfl, rfl⟩
    · obtain ⟨e, he, rfl, rfl⟩ := isPower_iff.mp hp
      refine ⟨⟨_, none, some e⟩, ⟨hw.2, by simp, fun _ h => Option.some.inj h ▸ he,
        fun h => hw.1 h.1⟩, ?_, ?_⟩
      · simp [Numeral.chars, Numeral.fractionChars, Numeral.exponentChars]
      · simp [Numeral.decimal]
    · refine ⟨⟨_, none, none⟩, ⟨hw.2, by simp, by simp, fun h => hw.1 h.1⟩, ?_, ?_⟩
      · simp [Numeral.chars, Numeral.fractionChars, Numeral.exponentChars]
      · simp [Numeral.decimal]
  · rintro ⟨⟨whole, fraction, exponent⟩, ⟨hw, hf, he, hne⟩, rfl, rfl⟩
    simp only at hw hf he hne
    have hp := isPowerOrNothing_iff.mpr ⟨exponent, he, rfl, rfl⟩
    cases fraction with
    | some digits =>
      by_cases hnil : whole = []
      · subst hnil
        exact .fractional (hf digits rfl) hp
      · exact .pointed ⟨hnil, hw⟩ (hf digits rfl) hp
    | none =>
      have hd : IsDigits whole := ⟨fun h => hne ⟨h, rfl⟩, hw⟩
      cases exponent with
      | some e =>
        have hs := IsNumber.scaled hd (isPower_iff.mpr ⟨e, he e rfl, rfl, rfl⟩)
        simpa [Numeral.chars, Numeral.fractionChars, Numeral.exponentChars, Numeral.decimal]
          using hs
      | none =>
        have hs := IsNumber.whole hd
        simpa [Numeral.chars, Numeral.fractionChars, Numeral.exponentChars, Numeral.decimal]
          using hs

/-! ## What is read is formed -/

theorem isDigits_takeWhile {cs : List Char} (h : cs.takeWhile Char.isDigit ≠ []) :
    IsDigits (cs.takeWhile Char.isDigit) :=
  ⟨h, List.all_eq_true.mp List.all_takeWhile⟩

theorem Exponent.formed_of_read? {cs rest : List Char} {e : Exponent}
    (h : read? cs = some (e, rest)) : e.Formed := by
  unfold read? at h
  split at h
  · cases h
  · rename_i mark cs
    split at h
    · rename_i hm
      dsimp only at h
      split at h
      · cases h
      · rename_i hne
        cases h
        refine ⟨hm, ?_, isDigits_takeWhile hne⟩
        unfold readSign
        split
        · exact Or.inr (Or.inl rfl)
        · exact Or.inr (Or.inr rfl)
        · exact Or.inl rfl
    · cases h

namespace Numeral

theorem isDigits_of_readFraction {cs digits : List Char}
    (h : (readFraction cs).1 = some digits) : IsDigits digits := by
  unfold readFraction at h
  split at h
  · split at h
    · cases h
    · rename_i hne
      cases h
      exact isDigits_takeWhile hne
  · cases h

theorem formed_of_readExponent {cs : List Char} {e : Exponent}
    (h : (readExponent cs).1 = some e) : e.Formed := by
  unfold readExponent at h
  split at h
  · rename_i hr
    cases h
    exact Exponent.formed_of_read? hr
  · cases h

theorem formed_of_read? {cs rest : List Char} {n : Numeral} (h : read? cs = some (n, rest)) :
    n.Formed := by
  unfold read? at h
  dsimp only at h
  split at h
  · cases h
  · rename_i hne
    cases h
    exact ⟨List.all_eq_true.mp List.all_takeWhile, fun _ => isDigits_of_readFraction,
      fun _ => formed_of_readExponent, hne⟩

end Numeral

/-! ## A number literal in front is read -/

theorem Exponent.readSign_of_isDigit {cs rest : List Char} (h : IsDigits cs) :
    readSign (cs ++ rest) = (none, cs ++ rest) := by
  obtain ⟨c, cs, rfl⟩ := List.exists_cons_of_ne_nil h.1
  have hc : c.isDigit = true := h.2 c List.mem_cons_self
  unfold readSign
  split
  · rename_i heq
    rw [(List.cons.inj heq).1] at hc
    cases hc
  · rename_i heq
    rw [(List.cons.inj heq).1] at hc
    cases hc
  · rfl

/-- An exponent at the front of a text is read with all digits that follow it. -/
theorem Exponent.Formed.read?_append {e : Exponent} (h : e.Formed) (rest : List Char) :
    read? (e.chars ++ rest) = some (⟨e.mark, e.sign, e.digits ++ rest.takeWhile Char.isDigit⟩,
      rest.dropWhile Char.isDigit) := by
  obtain ⟨mark, sign, digits⟩ := e
  obtain ⟨hm, hs, hd⟩ := h
  simp only at hm hs hd
  have hsign : readSign (sign.toList ++ digits ++ rest) = (sign, digits ++ rest) := by
    rcases hs with rfl | rfl | rfl
    · exact readSign_of_isDigit hd
    · rfl
    · rfl
  have ht : (digits ++ rest).takeWhile Char.isDigit = digits ++ rest.takeWhile Char.isDigit :=
    List.takeWhile_append_of_pos hd.2
  have hr : (digits ++ rest).dropWhile Char.isDigit = rest.dropWhile Char.isDigit :=
    List.dropWhile_append_of_pos hd.2
  simp only [chars, List.cons_append, read?, if_pos hm]
  rw [hsign]
  simp only [ht, hr]
  split
  · rename_i hnil
    exact absurd (List.append_eq_nil_iff.mp hnil).1 hd.1
  · rfl

namespace Numeral

theorem readExponent_append {exponent : Option Exponent}
    (h : ∀ e, exponent = some e → e.Formed) (rest : List Char) :
    (exponentChars exponent).length ≤
        (exponentChars (readExponent (exponentChars exponent ++ rest)).1).length ∧
      (rest = [] → readExponent (exponentChars exponent ++ rest) = (exponent, [])) := by
  cases exponent with
  | none =>
    refine ⟨Nat.zero_le _, ?_⟩
    rintro rfl
    rfl
  | some e =>
    have hr := (h e rfl).read?_append rest
    simp only [exponentChars, readExponent, hr]
    refine ⟨?_, ?_⟩
    · simp only [Exponent.chars, List.length_append, List.length_cons]
      omega
    · rintro rfl
      simp

/-- No exponent starts with a digit or with a point. -/
theorem digits_exponentChars_append {e : Exponent} (h : e.Formed) (rest : List Char) :
    (exponentChars (some e) ++ rest).takeWhile Char.isDigit = [] ∧
      (exponentChars (some e) ++ rest).dropWhile Char.isDigit = exponentChars (some e) ++ rest ∧
      readFraction (exponentChars (some e) ++ rest) = (none, exponentChars (some e) ++ rest) := by
  obtain ⟨mark, sign, digits⟩ := e
  obtain ⟨hm, -, -⟩ := h
  simp only at hm
  rcases hm with rfl | rfl
  · exact ⟨rfl, rfl, rfl⟩
  · exact ⟨rfl, rfl, rfl⟩

theorem readFraction_cons {digits : List Char} (h : IsDigits digits) (rest : List Char) :
    readFraction ('.' :: (digits ++ rest)) =
      (some (digits ++ rest.takeWhile Char.isDigit), rest.dropWhile Char.isDigit) := by
  have ht : (digits ++ rest).takeWhile Char.isDigit = digits ++ rest.takeWhile Char.isDigit :=
    List.takeWhile_append_of_pos h.2
  have hr : (digits ++ rest).dropWhile Char.isDigit = rest.dropWhile Char.isDigit :=
    List.dropWhile_append_of_pos h.2
  simp only [readFraction, ht, hr]
  split
  · rename_i hnil
    exact absurd (List.append_eq_nil_iff.mp hnil).1 h.1
  · rfl

/-- What a numeral is read from, part by part. -/
theorem read?_of_parts {cs whole rest : List Char} {fraction : Option (List Char)}
    (hw : cs.takeWhile Char.isDigit = whole)
    (hf : readFraction (cs.dropWhile Char.isDigit) = (fraction, rest))
    (hne : ¬ (whole = [] ∧ fraction = none)) :
    read? cs = some (⟨whole, fraction, (readExponent rest).1⟩, (readExponent rest).2) := by
  simp only [read?, hw, hf]
  exact if_neg hne

section Front

variable {whole : List Char} {exponent : Option Exponent} (hw : ∀ c ∈ whole, c.isDigit = true)
  (he : ∀ e, exponent = some e → e.Formed) (rest : List Char)
include hw he

theorem exists_read?_pointed {digits : List Char} (hd : IsDigits digits) :
    ∃ m rest', read? (chars ⟨whole, some digits, exponent⟩ ++ rest) = some (m, rest') ∧
      (chars ⟨whole, some digits, exponent⟩).length ≤ m.chars.length ∧
      (rest = [] → m = ⟨whole, some digits, exponent⟩) := by
  obtain ⟨hlength, hexact⟩ := readExponent_append he rest
  simp only [chars, fractionChars, List.append_assoc, List.cons_append]
  have ht : (whole ++ '.' :: (digits ++ (exponentChars exponent ++ rest))).takeWhile
      Char.isDigit = whole := by
    rw [List.takeWhile_append_of_pos hw, List.takeWhile_cons_of_neg (by decide), List.append_nil]
  have hf : readFraction ((whole ++ '.' :: (digits ++ (exponentChars exponent ++ rest))).dropWhile
      Char.isDigit) =
        (some (digits ++ (exponentChars exponent ++ rest).takeWhile Char.isDigit),
          (exponentChars exponent ++ rest).dropWhile Char.isDigit) := by
    rw [List.dropWhile_append_of_pos hw, List.dropWhile_cons_of_neg (by decide),
      readFraction_cons hd]
  refine ⟨_, _, read?_of_parts ht hf fun h => Option.some_ne_none _ h.2, ?_⟩
  cases exponent with
  | some e =>
    obtain ⟨htake, hdrop, -⟩ := digits_exponentChars_append (he e rfl) rest
    rw [htake, hdrop, List.append_nil]
    refine ⟨?_, fun hnil => by rw [hexact hnil]⟩
    simp only [List.length_append, List.length_cons]
    omega
  | none =>
    refine ⟨?_, ?_⟩
    · simp only [exponentChars, List.length_append, List.length_cons, List.length_nil]
      omega
    · rintro rfl
      simp [exponentChars, readExponent, Exponent.read?]

theorem exists_read?_unpointed (hne : whole ≠ []) :
    ∃ m rest', read? (chars ⟨whole, none, exponent⟩ ++ rest) = some (m, rest') ∧
      (chars ⟨whole, none, exponent⟩).length ≤ m.chars.length ∧
      (rest = [] → m = ⟨whole, none, exponent⟩) := by
  obtain ⟨hlength, hexact⟩ := readExponent_append he rest
  simp only [chars, fractionChars, List.append_nil, List.append_assoc]
  have ht : (whole ++ (exponentChars exponent ++ rest)).takeWhile Char.isDigit =
      whole ++ (exponentChars exponent ++ rest).takeWhile Char.isDigit :=
    List.takeWhile_append_of_pos hw
  have hf : readFraction ((whole ++ (exponentChars exponent ++ rest)).dropWhile Char.isDigit) =
      ((readFraction ((exponentChars exponent ++ rest).dropWhile Char.isDigit)).1,
        (readFraction ((exponentChars exponent ++ rest).dropWhile Char.isDigit)).2) := by
    rw [List.dropWhile_append_of_pos hw]
  refine ⟨_, _, read?_of_parts ht hf fun h => hne (List.append_eq_nil_iff.mp h.1).1, ?_⟩
  cases exponent with
  | some e =>
    obtain ⟨htake, hdrop, hfraction⟩ := digits_exponentChars_append (he e rfl) rest
    rw [htake, hdrop, hfraction, List.append_nil]
    refine ⟨?_, fun hnil => by rw [hexact hnil]⟩
    simp only [List.length_append]
    omega
  | none =>
    refine ⟨?_, ?_⟩
    · simp only [exponentChars, List.length_append, List.length_nil]
      omega
    · rintro rfl
      simp [exponentChars, readFraction, readExponent, Exponent.read?]

end Front

/-- **A number literal at the front of a text is read**, or a longer one. If nothing follows it, it
is read as it is. -/
theorem Formed.exists_read?_append {n : Numeral} (h : n.Formed) (rest : List Char) :
    ∃ m rest', read? (n.chars ++ rest) = some (m, rest') ∧ n.chars.length ≤ m.chars.length ∧
      (rest = [] → m = n) := by
  obtain ⟨whole, fraction, exponent⟩ := n
  obtain ⟨hw, hf, he, hne⟩ := h
  cases fraction with
  | some digits => exact exists_read?_pointed hw he rest (hf digits rfl)
  | none => exact exists_read?_unpointed hw he rest fun hnil => hne ⟨hnil, rfl⟩

end Numeral

end LineCalc
