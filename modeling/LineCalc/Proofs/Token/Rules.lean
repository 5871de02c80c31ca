import LineCalc.Proofs.Token.Lexeme
import LineCalc.Proofs.Token.Number

/-!
# The rules for tokens

Which texts the rules for tokens match, what a matched text stands for, and that the longest match
is what is taken at the front of a text.

* `Means` are the rules. A text may be the front of a longer one that a rule matches as well, such
  as `1` and `1e5`, `/` and `//`, `print` and `printer`; `LongestMatch` is the longest.
* `Means.exists_read?_append`: at the front of a text that begins with a matched text, at least that
  one is taken.
* `Piece.read?_eq_none_iff`, `Piece.longestMatch_of_read?` and `LongestMatch.exists_read?`: a piece
  is taken exactly if there is a match, and then it is the longest one.
-/

namespace LineCalc

/-- What a matched text stands for. -/
inductive Meaning where
  /-- Nothing: it only separates others. -/
  | nothing
  | token (token : Token)
  /-- A number beyond the greatest finite one. -/
  | outOfRange
  deriving DecidableEq

/-- **The rules for tokens**: some rule matches the text, and the text stands for what is given. -/
inductive Means : List Char → Meaning → Prop
  | number {cs : List Char} {d : Decimal} {m : Magnitude} (hn : IsNumber cs d)
      (hd : d.nearest = some m) : Means cs (.token (.number (.finite false m)))
  | outOfRange {cs : List Char} {d : Decimal} (hn : IsNumber cs d) (hd : d.nearest = none) :
      Means cs .outOfRange
  | print : Means ['p', 'r', 'i', 'n', 't'] (.token .print)
  | name {c : Char} {cs : List Char} (hc : isWordStart c = true)
      (hcs : ∀ d ∈ cs, isWordPart d = true) (hne : c :: cs ≠ ['p', 'r', 'i', 'n', 't']) :
      Means (c :: cs) (.token (.identifier (String.ofList (c :: cs))))
  | comment {cs : List Char} (h : ∀ c ∈ cs, endsComment c = false) :
      Means ('/' :: '/' :: cs) .nothing
  | sign {c : Char} {t : Token} (h : signToken? c = some t) : Means [c] (.token t)
  | blanks {cs : List Char} (hne : cs ≠ []) (h : ∀ c ∈ cs, isSeparator c = true) :
      Means cs .nothing

/-- The longest text at the front of a text that some rule matches, and what it stands for. -/
structure LongestMatch (cs taken : List Char) (m : Meaning) : Prop where
  front : taken <+: cs
  means : Means taken m
  longest : ∀ other k, other <+: cs → Means other k → other.length ≤ taken.length

namespace Piece

/-- What the text of a piece stands for. -/
def meaning : Piece → Meaning
  | blanks _ => .nothing
  | comment _ => .nothing
  | numeral n =>
    match n.decimal.nearest with
    | some m => .token (.number (.finite false m))
    | none => .outOfRange
  | word cs => .token (wordToken cs)
  | sign _ t => .token t

theorem token?_eq (p : Piece) (line : Nat) :
    p.token? line =
      match p.meaning with
      | .nothing => .ok none
      | .token t => .ok (some t)
      | .outOfRange => .error (.outOfRange (String.ofList p.chars) line) := by
  cases p with
  | numeral n =>
    simp only [token?, numeralToken, meaning, chars]
    cases n.decimal.nearest <;> rfl
  | _ => rfl

/-! ## What is taken is matched by a rule -/

theorem means_numeral {n : Numeral} (h : n.Formed) : Means n.chars (numeral n).meaning := by
  have hn : IsNumber n.chars n.decimal := isNumber_iff.mpr ⟨n, h, rfl, rfl⟩
  simp only [meaning]
  split
  · rename_i hd
    exact .number hn hd
  · rename_i hd
    exact .outOfRange hn hd

theorem means_word {c : Char} {cs : List Char} (hc : isWordStart c = true)
    (hcs : ∀ d ∈ cs, isWordPart d = true) : Means (c :: cs) (word (c :: cs)).meaning := by
  simp only [meaning, wordToken]
  split
  · rename_i heq
    rw [heq]
    exact .print
  · rename_i hne
    exact .name hc hcs hne

theorem means_of_read? {cs rest : List Char} {p : Piece} (h : read? cs = some (p, rest)) :
    Means p.chars p.meaning := by
  unfold read? at h
  split at h
  · rename_i hc
    cases h
    unfold startsComment at hc
    split at hc
    · refine .comment fun c hc => ?_
      have hall := List.all_eq_true.mp List.all_takeWhile c hc
      simpa using hall
    · cases hc
  split at h
  · rename_i hs
    cases h
    exact .blanks (takeWhile_ne_nil_of_head? (fun _ hc => hc) hs)
      (List.all_eq_true.mp List.all_takeWhile)
  split at h
  · rename_i hw
    cases h
    cases cs with
    | nil => cases hw
    | cons c cs =>
      have hc : isWordStart c = true := hw
      rw [List.takeWhile_cons_of_pos (isWordPart_of_isWordStart hc)]
      exact means_word hc (List.all_eq_true.mp List.all_takeWhile)
  split at h
  · rename_i hn
    cases h
    exact means_numeral (Numeral.formed_of_read? hn)
  · unfold readSign? at h
    split at h
    · cases h
    · obtain ⟨t, ht, heq⟩ := Option.map_eq_some_iff.mp h
      cases heq
      exact .sign ht

/-! ## Which rule is tried -/

theorem read?_comment (cs : List Char) :
    read? ('/' :: '/' :: cs) = some (comment ('/' :: '/' :: cs.takeWhile (!endsComment ·)),
      cs.dropWhile (!endsComment ·)) := rfl

theorem read?_of_isSeparator {c : Char} (h : isSeparator c = true) (cs : List Char) :
    read? (c :: cs) = some (blanks (c :: cs.takeWhile isSeparator), cs.dropWhile isSeparator) := by
  have hcomment : startsComment (c :: cs) = false := startsComment_eq_false h rfl
  unfold read?
  rw [if_neg (by simp [hcomment]), if_pos (by simpa using h), List.takeWhile_cons_of_pos h,
    List.dropWhile_cons_of_pos h]

theorem read?_of_isWordStart {c : Char} (h : isWordStart c = true) (cs : List Char) :
    read? (c :: cs) = some (word (c :: cs.takeWhile isWordPart), cs.dropWhile isWordPart) := by
  have hcomment : startsComment (c :: cs) = false := startsComment_eq_false h rfl
  have hblank := isSeparator_eq_false h rfl
  have hpart := isWordPart_of_isWordStart h
  unfold read?
  rw [if_neg (by simp [hcomment]), if_neg (by simp [hblank]), if_pos (by simpa using h),
    List.takeWhile_cons_of_pos hpart, List.dropWhile_cons_of_pos hpart]

end Piece

/-- A numeral starts with a digit or a point. -/
theorem Numeral.Formed.exists_chars_eq_cons {n : Numeral} (h : n.Formed) :
    ∃ c cs, n.chars = c :: cs ∧ (c.isDigit = true ∨ c = '.') := by
  obtain ⟨whole, fraction, exponent⟩ := n
  obtain ⟨hw, -, -, hne⟩ := h
  cases whole with
  | cons c whole => exact ⟨c, _, rfl, Or.inl (hw c List.mem_cons_self)⟩
  | nil =>
    cases fraction with
    | some digits => exact ⟨'.', _, rfl, Or.inr rfl⟩
    | none => exact absurd ⟨rfl, rfl⟩ hne

theorem Piece.read?_of_numeral {cs rest : List Char} {n : Numeral}
    (h : Numeral.read? cs = some (n, rest)) : read? cs = some (numeral n, rest) := by
  obtain ⟨c, more, hc, hd⟩ := (Numeral.formed_of_read? h).exists_chars_eq_cons
  have hcs := Numeral.chars_of_read? h
  rw [hc, List.cons_append] at hcs
  subst hcs
  have hother : startsComment (c :: (more ++ rest)) = false ∧ isSeparator c = false ∧
      isWordStart c = false := by
    rcases hd with hd | rfl
    · exact ⟨startsComment_eq_false hd rfl, isSeparator_eq_false hd rfl, isWordStart_of_isDigit hd⟩
    · exact ⟨rfl, rfl, rfl⟩
  unfold read?
  rw [if_neg (by simp [hother.1]), if_neg (by simp [hother.2.1]), if_neg (by simp [hother.2.2]), h]

/-- At the front of a text that begins with a number, at least that one is taken. -/
theorem IsNumber.exists_read?_append {cs : List Char} {d : Decimal} (h : IsNumber cs d)
    (rest : List Char) :
    ∃ n rest', Piece.read? (cs ++ rest) = some (.numeral n, rest') ∧
      cs.length ≤ n.chars.length ∧ (rest = [] → n.decimal = d) := by
  obtain ⟨n, hf, rfl, rfl⟩ := isNumber_iff.mp h
  obtain ⟨n', rest', hr, hle, hnil⟩ := hf.exists_read?_append rest
  exact ⟨n', rest', Piece.read?_of_numeral hr, hle, fun hrest => by rw [hnil hrest]⟩

/-- At the front of a text that begins with a word, at least that one is taken. -/
theorem Piece.exists_read?_word_append {c : Char} {cs : List Char} (hc : isWordStart c = true)
    (hcs : ∀ d ∈ cs, isWordPart d = true) (rest : List Char) :
    ∃ word rest', read? (c :: cs ++ rest) = some (.word word, rest') ∧
      (c :: cs).length ≤ word.length ∧ (rest = [] → word = c :: cs) := by
  have hr := read?_of_isWordStart hc (cs ++ rest)
  rw [List.takeWhile_append_of_pos hcs] at hr
  refine ⟨_, _, hr, ?_, ?_⟩
  · simp only [List.length_cons, List.length_append]
    omega
  · rintro rfl
    rw [List.takeWhile_nil, List.append_nil]

/-! ## The longest match -/

/-- **At the front of a text that begins with a matched text, at least that one is taken.** If
nothing follows it, then what is taken stands for the same. -/
theorem Means.exists_read?_append {cs : List Char} {m : Meaning} (h : Means cs m)
    (rest : List Char) :
    ∃ p rest', Piece.read? (cs ++ rest) = some (p, rest') ∧ cs.length ≤ p.chars.length ∧
      (rest = [] → p.meaning = m) := by
  cases h with
  | number hn hd | outOfRange hn hd =>
    obtain ⟨n, rest', hr, hle, hnil⟩ := hn.exists_read?_append rest
    refine ⟨_, _, hr, hle, fun hrest => ?_⟩
    rw [Piece.meaning, hnil hrest, hd]
  | print =>
    have hp : isWordStart 'p' = true := rfl
    have hrint : ∀ d ∈ ['r', 'i', 'n', 't'], isWordPart d = true := List.all_eq_true.mp rfl
    obtain ⟨cs, rest', hr, hle, hnil⟩ := Piece.exists_read?_word_append hp hrint rest
    refine ⟨_, _, hr, hle, fun hrest => ?_⟩
    rw [hnil hrest]
    rfl
  | name hc hcs hne =>
    obtain ⟨cs, rest', hr, hle, hnil⟩ := Piece.exists_read?_word_append hc hcs rest
    refine ⟨_, _, hr, hle, fun hrest => ?_⟩
    rw [hnil hrest, Piece.meaning, wordToken, if_neg hne]
  | @comment cs h =>
    have hr := Piece.read?_comment (cs ++ rest)
    rw [List.takeWhile_append_of_pos (by simpa using h)] at hr
    refine ⟨_, _, hr, ?_, fun _ => rfl⟩
    simp only [Piece.chars, List.length_cons, List.length_append]
    omega
  | @sign c t h =>
    by_cases hc : Piece.startsComment (c :: rest) = true
    · -- A slash is a sign of its own only if no other slash follows it.
      unfold Piece.startsComment at hc
      split at hc
      · rename_i heq
        cases heq
        exact ⟨_, _, Piece.read?_comment _, by simp [Piece.chars],
          fun hnil => absurd hnil (List.cons_ne_nil _ _)⟩
      · cases hc
    · have hr := read?_sign h (by simpa using hc)
      exact ⟨_, _, hr, Nat.le_refl _, fun _ => rfl⟩
  | @blanks cs hne h =>
    obtain ⟨c, cs, rfl⟩ := List.exists_cons_of_ne_nil hne
    have hr := Piece.read?_of_isSeparator (h c List.mem_cons_self) (cs ++ rest)
    rw [List.takeWhile_append_of_pos fun d hd => h d (List.mem_cons_of_mem _ hd)] at hr
    refine ⟨_, _, hr, ?_, fun _ => rfl⟩
    simp only [Piece.chars, List.length_cons, List.length_append]
    omega

/-- A text stands for one thing. -/
theorem Means.unique {cs : List Char} {m k : Meaning} (hm : Means cs m) (hk : Means cs k) :
    m = k := by
  obtain ⟨p, rest, hp, -, hpm⟩ := hm.exists_read?_append []
  obtain ⟨q, rest', hq, -, hqk⟩ := hk.exists_read?_append []
  rw [hp] at hq
  cases hq
  rw [← hpm rfl, hqk rfl]

namespace Piece

/-- No piece is taken exactly if no rule matches at the front. -/
theorem read?_eq_none_iff {cs : List Char} :
    read? cs = none ↔ ∀ taken m, taken <+: cs → ¬ Means taken m := by
  constructor
  · rintro h taken m ⟨rest, rfl⟩ hm
    obtain ⟨p, rest', hp, -⟩ := hm.exists_read?_append rest
    rw [h] at hp
    cases hp
  · intro h
    cases hr : read? cs with
    | none => rfl
    | some taken =>
      obtain ⟨p, rest⟩ := taken
      exact absurd (means_of_read? hr) (h _ _ ⟨rest, chars_of_read? hr⟩)

/-- **The piece that is taken is the longest match.** -/
theorem longestMatch_of_read? {cs rest : List Char} {p : Piece} (h : read? cs = some (p, rest)) :
    LongestMatch cs p.chars p.meaning where
  front := ⟨rest, chars_of_read? h⟩
  means := means_of_read? h
  longest := by
    rintro other k ⟨rest', rfl⟩ hk
    obtain ⟨q, more, hq, hle, -⟩ := hk.exists_read?_append rest'
    rw [h] at hq
    cases hq
    exact hle

end Piece

/-- The longest match is the piece that is taken. -/
theorem LongestMatch.exists_read? {taken rest : List Char} {m : Meaning}
    (h : LongestMatch (taken ++ rest) taken m) :
    ∃ p, Piece.read? (taken ++ rest) = some (p, rest) ∧ p.chars = taken ∧ p.meaning = m := by
  obtain ⟨p, rest', hr, hle, -⟩ := h.means.exists_read?_append rest
  have hl := Piece.longestMatch_of_read? hr
  have hlength := h.longest _ _ hl.front hl.means
  have hcs : p.chars = taken :=
    (List.prefix_of_prefix_length_le hl.front h.front hlength).eq_of_length_le hle
  have hrest : rest' = rest := by
    have hall := Piece.chars_of_read? hr
    rw [hcs] at hall
    exact List.append_cancel_left hall
  refine ⟨p, hrest ▸ hr, hcs, ?_⟩
  exact (hcs ▸ hl.means).unique h.means

end LineCalc
