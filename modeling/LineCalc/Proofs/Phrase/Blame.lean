import LineCalc.Proofs.Phrase.Depth

/-!
# What syntax errors are about

Every error of reading is about one of the lexemes that were to be read, or about the end of the
line. It carries the text of that lexeme, where it carries a text, and the number of its line.

* `SyntaxError.About` says what an error is about, and `Phrase.Blames` that all errors of a reader
  are about its lexemes. Errors at the end are reported on no line by the readers, and on the line
  that was read by `readLexemes`.
* One lemma for each operation on readers, and `Phrase.blames_statement` puts them together.
* `about_of_readLexemes` is about whole lines of lexemes.
-/

namespace LineCalc

/-- What an error is about: one of the given lexemes, or the end of the line with the given number.
A number out of range is no lexeme. -/
def SyntaxError.About (ts : List Lexeme) (last : Nat) : SyntaxError → Prop
  | unexpectedToken text line => ∃ t ∈ ts, text = t.token.text ∧ line = t.line
  | unexpectedEnd line => line = last
  | unclosed line => ∃ t ∈ ts, t.token = .opening ∧ line = t.line
  | outOfRange _ _ => False
  | tooDeep line => ∃ t ∈ ts, line = t.line
  | trailing text line => ∃ t ∈ ts, text = t.token.text ∧ line = t.line

variable {ts us : List Lexeme} {x : SyntaxError} {last : Nat}

theorem SyntaxError.About.mono (h : x.About ts last) (hs : ts ⊆ us) : x.About us last := by
  cases x with
  | unexpectedToken | unclosed | tooDeep | trailing =>
    obtain ⟨t, ht, habout⟩ := h
    exact ⟨t, hs ht, habout⟩
  | unexpectedEnd => exact h
  | outOfRange => exact h.elim

theorem SyntaxError.About.cons (h : x.About ts last) (t : Lexeme) : x.About (t :: ts) last :=
  h.mono (List.subset_cons_self t ts)

/-- Putting something on top of a tree fails for the depth only. -/
theorem Reply.grow_eq_error {r : Reply} {line : Nat} {make : Expr → Numbering → Expr × Numbering}
    (h : (r.grow line make).outcome = .error x) : r.outcome = .error x ∨ x = .tooDeep line := by
  unfold grow at h
  split at h
  · exact Or.inl h
  · split at h
    · exact Or.inr (Except.error.inj h).symm
    · cases h

namespace Phrase

/-- Every error of the reader is about the lexemes that it was given. -/
def Blames (p : Phrase) : Prop := ∀ ts k x, (p.read ts k).outcome = .error x → x.About ts 0

/-- Every error of the readers is about the lexemes that they were given, or about the opening
parenthesis before them. -/
def GroupBlames (group : Nat → Phrase) : Prop :=
  ∀ t ts k x, t.token = .opening → ((group t.line).read ts k).outcome = .error x →
    x.About (t :: ts) 0

variable {p : Phrase}

theorem blames_operand {group : Nat → Phrase} (hg : GroupBlames group) :
    Blames (operand group) := by
  intro ts k x h
  simp only [operand] at h
  unfold readOperand at h
  split at h
  · cases h
    exact rfl
  · cases h
  · cases h
  · exact hg ⟨.opening, _⟩ _ k x rfl h
  · cases h
    exact ⟨_, List.mem_cons_self, rfl, rfl⟩

theorem blames_closed (hp : Blames p) : GroupBlames fun line => closed line p := by
  intro t ts k x ht h
  simp only [closed] at h
  unfold close at h
  split at h
  · rename_i x' hx
    rw [hx] at h
    cases h
    exact (hp ts k x hx).cons t
  · rename_i e he
    split at h
    · rw [he] at h
      cases h
    · cases h
      exact ⟨t, List.mem_cons_self, ht, rfl⟩
    · cases h
      exact ⟨t, List.mem_cons_self, ht, rfl⟩

theorem blames_signed (hp : Blames p) : Blames (signed p) := by
  intro ts
  simp only [read_signed]
  induction ts with
  | nil => exact hp []
  | cons t ts ih =>
    intro k x h
    unfold readSigned at h
    split at h
    · rcases Reply.grow_eq_error h with h | rfl
      · exact (ih k x h).cons t
      · exact ⟨t, List.mem_cons_self, rfl⟩
    · exact hp (t :: ts) k x h

theorem about_of_readChain {operator? : Token → Option Operator} (hp : Blames p) {left : Expr}
    {k : Numbering} (h : (readChain operator? p left ts k).outcome = .error x) : x.About ts 0 := by
  fun_induction readChain operator? p left ts k with
  | case1 => cases h
  | case2 => cases h
  | case3 left k t ts op hop r x' he =>
    rw [he] at h
    cases h
    rcases Reply.grow_eq_error he with he | rfl
    · exact (hp ts k _ he).cons t
    · exact ⟨t, List.mem_cons_self, rfl⟩
  | case4 left k t ts op hop r joined hj ih =>
    refine ((ih h).mono ?_).cons t
    simp only [r, Reply.rest_grow]
    exact (p.rest_suffix ts k).subset

theorem blames_chain {operator? : Token → Option Operator} (hp : Blames p) :
    Blames (chain operator? p) := by
  intro ts k x h
  simp only [read_chain, Reply.andThen] at h
  split at h
  · exact hp ts k x h
  · exact (about_of_readChain hp h).mono (p.rest_suffix ts k).subset

theorem blames_assigned (hp : Blames p) : Blames (assigned p) := by
  intro ts k x h
  simp only [read_assigned] at h
  fun_induction readAssigned p ts k with
  | case1 name line l ts k ih =>
    rcases Reply.grow_eq_error h with h | rfl
    · exact ((ih h).cons _).cons _
    · exact ⟨⟨.identifier name, line⟩, List.mem_cons_self, rfl⟩
  | case2 ts k => exact hp ts k x h

theorem blames_printed (hp : Blames p) : Blames (printed p) := by
  intro ts k x h
  simp only [read_printed] at h
  unfold readPrinted at h
  split at h
  · rename_i line ts
    rcases Reply.grow_eq_error h with h | rfl
    · exact (hp ts k x h).cons _
    · exact ⟨⟨.print, line⟩, List.mem_cons_self, rfl⟩
  · exact hp _ k x h

theorem groupBlames_group (nesting : Nat) : GroupBlames (group nesting) := by
  induction nesting with
  | zero =>
    intro t ts k x _ h
    cases h
    exact ⟨t, List.mem_cons_self, rfl⟩
  | succ nesting ih =>
    exact blames_closed (blames_chain (blames_chain (blames_signed (blames_operand ih))))

theorem blames_expression (nesting : Nat) : Blames (expression nesting) :=
  blames_chain (blames_chain (blames_signed (blames_operand (groupBlames_group nesting))))

/-- **Every error in a statement is about one of its lexemes or about its end.** -/
theorem blames_statement (nesting : Nat) : Blames (statement nesting) :=
  blames_printed (blames_assigned (blames_expression nesting))

end Phrase

/-! ## Lines -/

/-- Parentheses that nest too deep are refused on the line of one of them. -/
theorem exists_mem_of_overNested? {opened line : Nat} (h : overNested? opened ts = some line) :
    ∃ t ∈ ts, line = t.line := by
  fun_induction overNested? opened ts with
  | case1 => cases h
  | case2 opened l ts =>
    cases h
    exact ⟨_, List.mem_cons_self, rfl⟩
  | case3 opened l ts _ ih | case4 opened l ts ih | case5 opened t ts _ _ ih =>
    obtain ⟨t, ht, hline⟩ := ih h
    exact ⟨t, List.mem_cons_of_mem _ ht, hline⟩

/-- Every error of a line is about one of its lexemes or about the end of the line. -/
theorem about_of_readLexemes {line : Nat} {k : Numbering}
    (h : (readLexemes ts line k).outcome = .error x) : x.About ts line := by
  unfold readLexemes at h
  split at h
  · cases h
  split at h
  · rename_i l hl
    cases h
    exact exists_mem_of_overNested? hl
  · have hrest : (readStatement ts k).rest ⊆ ts :=
      ((Phrase.statement ts.length).rest_suffix ts k).subset
    simp only [lineOutcome] at h
    split at h
    · cases h
      exact rfl
    · rename_i x' hne hx
      cases h
      have hx' := Phrase.blames_statement ts.length ts k x hx
      cases x with
      | unexpectedEnd l => exact absurd rfl (hne l)
      | _ => exact hx'
    · rename_i e t rest he hr
      cases h
      exact ⟨t, hrest (by rw [hr]; exact List.mem_cons_self), rfl, rfl⟩
    · cases h

end LineCalc
