import LineCalc.Proofs.Token.Rules

/-!
# Texts are cut by the longest match

The tokens of a text are those of the longest matches, one behind the other. The first place where
there is no match, or where the longest match is a number out of range, is the error of the text.

* `Lexes` cuts a text into longest matches, and `Fails` cuts it up to the first such place.
  `lexes_or_fails`: one of the two is always possible.
* `Blank` are the texts of blanks and comments.
* `tokenizeChars_of_read?_eq_none` and `tokenizeChars_of_outOfRange`: the two errors of a text, next
  to `spells_of_read?`, where there is none.
* `tokenize_longest_match` is the statement for every text.
-/

namespace LineCalc

variable {line : Nat}

/-- **The text is cut into longest matches**, and these are the tokens that they stand for. -/
inductive Lexes : List Char → List Token → Prop
  | done : Lexes [] []
  | skip {taken rest : List Char} {ts : List Token}
      (h : LongestMatch (taken ++ rest) taken .nothing) (hr : Lexes rest ts) :
      Lexes (taken ++ rest) ts
  | token {taken rest : List Char} {t : Token} {ts : List Token}
      (h : LongestMatch (taken ++ rest) taken (.token t)) (hr : Lexes rest ts) :
      Lexes (taken ++ rest) (t :: ts)

/-- **The text cannot be cut into longest matches**: behind some of them, no rule matches and the
next character is at fault, or the longest match is a number out of range. -/
inductive Fails (line : Nat) : List Char → SyntaxError → Prop
  | unknown {c : Char} {rest : List Char} (h : ∀ taken m, taken <+: c :: rest → ¬ Means taken m) :
      Fails line (c :: rest) (.unexpectedToken (String.ofList [c]) line)
  | outOfRange {taken rest : List Char} (h : LongestMatch (taken ++ rest) taken .outOfRange) :
      Fails line (taken ++ rest) (.outOfRange (String.ofList taken) line)
  | later {taken rest : List Char} {m : Meaning} {e : SyntaxError}
      (h : LongestMatch (taken ++ rest) taken m) (hm : m ≠ .outOfRange) (hr : Fails line rest e) :
      Fails line (taken ++ rest) e

/-- The text consists of blanks and of comments, each up to the end of its line. -/
inductive Blank : List Char → Prop
  | done : Blank []
  | separator {c : Char} {rest : List Char} (hc : isSeparator c = true) (hr : Blank rest) :
      Blank (c :: rest)
  | comment {body rest : List Char} (hb : ∀ c ∈ body, endsComment c = false)
      (he : ∀ c, rest.head? = some c → endsComment c = true) (hr : Blank rest) :
      Blank ('/' :: '/' :: body ++ rest)

/-! ## Errors -/

theorem tokenizeChars_of_read?_eq_none {c : Char} {cs : List Char}
    (h : Piece.read? (c :: cs) = none) :
    tokenizeChars line (c :: cs) = .error (.unexpectedToken (String.ofList [c]) line) := by
  rw [tokenizeChars]
  split
  · rfl
  · rename_i hr
    rw [h] at hr
    cases hr

theorem tokenizeChars_of_outOfRange {cs rest : List Char} {p : Piece}
    (h : Piece.read? cs = some (p, rest)) (hm : p.meaning = .outOfRange) :
    tokenizeChars line cs = .error (.outOfRange (String.ofList p.chars) line) := by
  cases cs with
  | nil => cases h
  | cons c cs =>
    rw [tokenizeChars]
    split
    · rename_i hr
      rw [h] at hr
      cases hr
    · rename_i hr
      rw [h] at hr
      cases hr
      rw [Piece.token?_eq, hm]
      rfl

/-! ## Cutting a text -/

/-- What a longest match contributes to the tokens of a text. -/
theorem LongestMatch.spells {taken rest : List Char} {m : Meaning}
    (h : LongestMatch (taken ++ rest) taken m) (token? : Option Token)
    (ht : ∀ p : Piece, p.meaning = m → p.token? line = .ok token?) :
    Spells line taken token?.toList rest := by
  obtain ⟨p, hr, -, hm⟩ := h.exists_read?
  exact spells_of_read? hr (ht p hm)

theorem LongestMatch.spells_nothing {taken rest : List Char}
    (h : LongestMatch (taken ++ rest) taken .nothing) : Spells line taken [] rest :=
  h.spells none fun p hp => by rw [p.token?_eq, hp]

theorem LongestMatch.spells_token {taken rest : List Char} {t : Token}
    (h : LongestMatch (taken ++ rest) taken (.token t)) : Spells line taken [t] rest :=
  h.spells (some t) fun p hp => by rw [p.token?_eq, hp]

theorem tokenizeChars_of_lexes {cs : List Char} {ts : List Token} (h : Lexes cs ts) :
    tokenizeChars line cs = .ok (ts.map (⟨·, line⟩)) := by
  induction h with
  | done => rw [tokenizeChars, List.map_nil]
  | skip h hr ih => exact (spells_nil_iff.mp h.spells_nothing).trans ih
  | token h hr ih =>
    have hs : Spells line _ _ _ := h.spells_token
    rw [hs, ih]
    rfl

theorem tokenizeChars_of_fails {cs : List Char} {e : SyntaxError} (h : Fails line cs e) :
    tokenizeChars line cs = .error e := by
  induction h with
  | unknown h => exact tokenizeChars_of_read?_eq_none (Piece.read?_eq_none_iff.mpr h)
  | outOfRange h =>
    obtain ⟨p, hr, hc, hm⟩ := h.exists_read?
    rw [tokenizeChars_of_outOfRange hr hm, hc]
  | @later taken rest m e h hm hr ih =>
    cases m with
    | nothing => exact (spells_nil_iff.mp h.spells_nothing).trans ih
    | token t =>
      have hs : Spells line _ _ _ := h.spells_token
      rw [hs, ih]
      rfl
    | outOfRange => exact absurd rfl hm

/-- Every text can be cut, to its end or up to the first fault. -/
theorem lexes_or_fails (line : Nat) (cs : List Char) :
    (∃ ts, Lexes cs ts) ∨ ∃ e, Fails line cs e := by
  fun_induction tokenizeChars line cs with
  | case1 => exact Or.inl ⟨[], .done⟩
  | case2 c cs h => exact Or.inr ⟨_, .unknown (Piece.read?_eq_none_iff.mp h)⟩
  | case3 c cs piece rest hr ih =>
    have hl := Piece.longestMatch_of_read? hr
    rw [← Piece.chars_of_read? hr] at hl ⊢
    cases hm : piece.meaning with
    | outOfRange => exact Or.inr ⟨_, .outOfRange (hm ▸ hl)⟩
    | nothing =>
      rcases ih with ⟨ts, hts⟩ | ⟨e, he⟩
      · exact Or.inl ⟨ts, .skip (hm ▸ hl) hts⟩
      · exact Or.inr ⟨e, .later hl (by simp [hm]) he⟩
    | token t =>
      rcases ih with ⟨ts, hts⟩ | ⟨e, he⟩
      · exact Or.inl ⟨t :: ts, .token (hm ▸ hl) hts⟩
      · exact Or.inr ⟨e, .later hl (by simp [hm]) he⟩

/-- The lexemes of a text are the tokens of its longest matches. -/
theorem tokenizeChars_eq_ok_iff {cs : List Char} {ts : List Lexeme} :
    tokenizeChars line cs = .ok ts ↔ ∃ us, Lexes cs us ∧ ts = us.map (⟨·, line⟩) := by
  constructor
  · intro h
    rcases lexes_or_fails line cs with ⟨us, hus⟩ | ⟨e, he⟩
    · rw [tokenizeChars_of_lexes hus] at h
      exact ⟨us, hus, (Except.ok.inj h).symm⟩
    · rw [tokenizeChars_of_fails he] at h
      cases h
  · rintro ⟨us, hus, rfl⟩
    exact tokenizeChars_of_lexes hus

/-- The error of a text is its first fault. -/
theorem tokenizeChars_eq_error_iff {cs : List Char} {e : SyntaxError} :
    tokenizeChars line cs = .error e ↔ Fails line cs e := by
  constructor
  · intro h
    rcases lexes_or_fails line cs with ⟨us, hus⟩ | ⟨e', he⟩
    · rw [tokenizeChars_of_lexes hus] at h
      cases h
    · rw [tokenizeChars_of_fails he] at h
      exact Except.error.inj h ▸ he
  · exact tokenizeChars_of_fails

/-! ## Texts without tokens -/

theorem tokenizeChars_comment {body rest : List Char} (hb : ∀ c ∈ body, endsComment c = false)
    (he : ∀ c, rest.head? = some c → endsComment c = true) :
    tokenizeChars line ('/' :: '/' :: body ++ rest) = tokenizeChars line rest := by
  have hend : EndsRun (!endsComment ·) rest := fun c hc => by simp [he c hc]
  have hbody : ∀ c ∈ body, (!endsComment c) = true := by simpa using hb
  have hr := Piece.read?_comment (body ++ rest)
  rw [takeWhile_append_of_endsRun hbody hend, dropWhile_append_of_endsRun hbody hend] at hr
  have hs : Spells line ('/' :: '/' :: body) (none : Option Token).toList rest :=
    spells_of_read? hr rfl
  exact spells_nil_iff.mp hs

theorem tokenizeChars_of_blank {cs : List Char} (h : Blank cs) :
    tokenizeChars line cs = .ok [] := by
  induction h with
  | done => rw [tokenizeChars]
  | separator hc hr ih => exact (tokenizeChars_cons_separator hc _).trans ih
  | comment hb he hr ih => exact (tokenizeChars_comment hb he).trans ih

theorem Blank.append_separators {cs rest : List Char} (h : ∀ c ∈ cs, isSeparator c = true)
    (hr : Blank rest) : Blank (cs ++ rest) := by
  induction cs with
  | nil => exact hr
  | cons c cs ih =>
    exact .separator (h c List.mem_cons_self) (ih fun d hd => h d (List.mem_cons_of_mem _ hd))

/-- A longest match that stands for nothing is a comment up to the end of its line, or blanks. -/
theorem LongestMatch.blank {taken rest : List Char}
    (h : LongestMatch (taken ++ rest) taken .nothing) (hr : Blank rest) :
    Blank (taken ++ rest) := by
  cases hm : h.means with
  | @comment body hb =>
    refine .comment hb (fun c hc => ?_) hr
    rw [← Bool.not_eq_false]
    intro hn
    -- Otherwise the comment would go on.
    obtain ⟨rest, rfl⟩ : ∃ more, rest = c :: more := List.head?_eq_some_iff.mp hc
    have hlong : Means ('/' :: '/' :: (body ++ [c])) .nothing := by
      refine .comment fun d hd => ?_
      rcases List.mem_append.mp hd with hd | hd
      · exact hb d hd
      · rw [List.mem_singleton.mp hd, hn]
    have hle := h.longest ('/' :: '/' :: (body ++ [c])) _ ⟨rest, by simp⟩ hlong
    simp only [List.length_cons, List.length_append, List.length_nil] at hle
    omega
  | blanks hne hs => exact hr.append_separators hs

theorem blank_of_lexes {cs : List Char} (h : Lexes cs []) : Blank cs := by
  generalize hts : ([] : List Token) = ts at h
  induction h with
  | done => exact .done
  | skip h hr ih => exact h.blank (ih hts)
  | token => cases hts

/-- The texts without lexemes and without an error are those of blanks and comments. -/
theorem tokenizeChars_eq_nil_iff {cs : List Char} : tokenizeChars line cs = .ok [] ↔ Blank cs := by
  constructor
  · intro h
    obtain ⟨us, hus, hnil⟩ := tokenizeChars_eq_ok_iff.mp h
    rw [List.map_eq_nil_iff.mp hnil.symm] at hus
    exact blank_of_lexes hus
  · exact tokenizeChars_of_blank

/-- **A text is cut by the longest match.** It has lexemes exactly if it can be cut into longest
matches none of which is a number out of range, and these are their tokens. It has an error exactly
if it cannot, and this is the first fault. It has no lexemes and no error exactly if it consists of
blanks and comments. -/
theorem tokenize_longest_match (source : String) (line : Nat) :
    (∀ ts, tokenize source line = .ok ts ↔
      ∃ us, Lexes source.toList us ∧ ts = us.map (⟨·, line⟩)) ∧
    (∀ e, tokenize source line = .error e ↔ Fails line source.toList e) ∧
    (tokenize source line = .ok [] ↔ Blank source.toList) :=
  ⟨fun _ => tokenizeChars_eq_ok_iff, fun _ => tokenizeChars_eq_error_iff, tokenizeChars_eq_nil_iff⟩

end LineCalc
