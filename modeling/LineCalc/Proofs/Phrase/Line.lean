import LineCalc.Phrase
import LineCalc.Proofs.Phrase.Completeness
import LineCalc.Proofs.Phrase.Text

/-!
# Lines are read by the grammar

A line is accepted if its tokens are a statement and two limits are kept: the depth of the tree, and
the parentheses that are open at a time.

* `overNested?_eq_none_iff`: `NestsWithin` is what is tested before anything is read.
* `derives_of_readLexemes` and `readLexemes_of_derives`: the tree of an accepted line is derived by
  the grammar, and a line that the grammar derives is accepted or refused as too deep.
* `readLine_reads_grammar`: both for lines of text.
* `Expr.Statement.readLine_text`: the text of a statement is read as that statement.
-/

namespace LineCalc

/-! ## The test before the reading -/

/-- What one token does to the test before the reading. -/
theorem overNested?_cons (opened : Nat) (t : Lexeme) (ts : List Lexeme) :
    overNested? opened (t :: ts) =
      if nestingLimit < t.token.openedBehind opened ∧ t.token = .opening then some t.line
      else overNested? (t.token.openedBehind opened) ts := by
  obtain ⟨token, line⟩ := t
  cases token <;> simp [overNested?, Token.openedBehind]

theorem overNested?_eq_none_iff {opened : Nat} {ts : List Lexeme} (ho : opened ≤ nestingLimit) :
    overNested? opened ts = none ↔
      ∀ before, before <+: tokens ts → openedBehind opened before ≤ nestingLimit := by
  induction ts generalizing opened with
  | nil =>
    simp only [overNested?, List.map_nil, List.prefix_nil, forall_eq, true_iff]
    exact ho
  | cons t ts ih =>
    rw [overNested?_cons, tokens_cons, forall_prefix_cons_iff]
    simp only [openedBehind_cons]
    split
    · rename_i h
      refine ⟨fun hf => (Option.some_ne_none _ hf).elim, fun hf => ?_⟩
      have hb := hf.2 [] List.nil_prefix
      simp only [openedBehind, List.foldl_nil] at hb
      omega
    · rename_i h
      have ho' : t.token.openedBehind opened ≤ nestingLimit := by
        by_cases ht : t.token = .opening
        · exact Nat.le_of_not_lt fun hlt => h ⟨hlt, ht⟩
        · cases htok : t.token <;> simp_all [Token.openedBehind]
          omega
      rw [ih ho']
      exact ⟨fun hf => ⟨ho, hf⟩, fun hf => hf.2⟩

/-- The test before the reading finds nothing if and only if the parentheses nest within the
limit. -/
theorem overNested?_zero_eq_none_iff {ts : List Lexeme} :
    overNested? 0 ts = none ↔ NestsWithin nestingLimit (tokens ts) :=
  overNested?_eq_none_iff (Nat.zero_le _)

/-! ## Whole lines -/

variable {ts : List Lexeme} {line : Nat} {k : Numbering} {e : Expr}

theorem lineOutcome_eq_some_iff {r : Reply} :
    lineOutcome line r = .ok (some e) ↔ r.outcome = .ok e ∧ r.rest = [] := by
  unfold lineOutcome
  split <;> rename_i h <;> simp_all

/-- What is accepted is a statement within the limits. -/
theorem derives_of_readLexemes (h : (readLexemes ts line k).outcome = .ok (some e)) :
    Derives .statement (tokens ts) e ∧ e.depth ≤ nestingLimit ∧
      NestsWithin nestingLimit (tokens ts) := by
  unfold readLexemes at h
  split at h
  · cases h
  split at h
  · cases h
  · rename_i hn
    obtain ⟨ho, hr⟩ := lineOutcome_eq_some_iff.mp h
    obtain ⟨taken, hts, he, hd⟩ := Phrase.sound_statement ts.length ts k e ho
    have hr' : ((Phrase.statement ts.length).read ts k).rest = [] := hr
    rw [hr', List.append_nil] at hts
    exact ⟨hts ▸ he, hd, overNested?_zero_eq_none_iff.mp hn⟩

/-- A statement is accepted, or refused as too deep if it is beyond one of the limits. -/
theorem readLexemes_of_derives (h : Derives .statement (tokens ts) e) :
    (e.depth ≤ nestingLimit ∧ NestsWithin nestingLimit (tokens ts) ∧
        ∃ f, f.Alike e ∧ (readLexemes ts line k).outcome = .ok (some f)) ∨
      (¬ (e.depth ≤ nestingLimit ∧ NestsWithin nestingLimit (tokens ts)) ∧
        ∃ l, (readLexemes ts line k).outcome = .error (.tooDeep l)) := by
  have hne : ts ≠ [] := fun hts => h.ne_nil (by rw [hts]; rfl)
  unfold readLexemes
  rw [if_neg hne]
  cases hn : overNested? 0 ts with
  | some l =>
    refine Or.inr ⟨fun hw => ?_, l, rfl⟩
    rw [overNested?_zero_eq_none_iff.mpr hw.2] at hn
    cases hn
  | none =>
    have hw := overNested?_zero_eq_none_iff.mp hn
    have hends : Category.statement.Ends [] := fun t ht => nomatch ht
    have hc := h.read_continues [] k rfl (Nat.le_refl ts.length) hends
    rw [List.append_nil] at hc
    cases hc with
    | proceeds f k' hd hf hr =>
      refine Or.inl ⟨hd, hw, f, hf, ?_⟩
      exact lineOutcome_eq_some_iff.mpr ⟨congrArg Reply.outcome hr, congrArg Reply.rest hr⟩
    | refuses l hd hr =>
      refine Or.inr ⟨fun hle => by omega, l, ?_⟩
      have hr' : (readStatement ts k).outcome = .error (.tooDeep l) := hr
      simp only [lineOutcome, hr']

/-- A text with tokens is read as its tokens are. -/
theorem readLine_of_tokenize {source : String} (h : tokenize source line = .ok ts)
    (next : NodeId) : readLine source line next = readLexemes ts line (.start next) := by
  unfold readLine
  rw [h]

/-- What is read from a line is a statement over the tokens of the line. -/
theorem derives_of_readLine {source : String} {next : NodeId}
    (h : (readLine source line next).outcome = .ok (some e)) :
    ∃ ts, tokenize source line = .ok ts ∧ Derives .statement (tokens ts) e ∧
      e.depth ≤ nestingLimit := by
  unfold readLine at h
  split at h
  · cases h
  · rename_i ts ht
    obtain ⟨hd, hle, -⟩ := derives_of_readLexemes h
    exact ⟨ts, ht, hd, hle⟩

/-- The constants of what is read have no signs, and its variables are names. -/
theorem leaves_of_readLine {source : String} {next : NodeId}
    (h : (readLine source line next).outcome = .ok (some e)) :
    (∀ v ∈ e.literals, ∃ m, v = .finite false m) ∧ ∀ name ∈ e.names, IsName name := by
  obtain ⟨ts, ht, hd, -⟩ := derives_of_readLine h
  have hw : ∀ t ∈ tokens ts, t.Written := by
    intro t hm
    obtain ⟨l, hl, rfl⟩ := List.mem_map.mp hm
    exact written_of_tokenize ht l hl
  exact ⟨hd.literals_of_written hw, hd.names_of_written hw⟩

/-- **A line is read by the grammar.** If a text has tokens, then reading it yields a given tree, up
to the numbers of its nodes, exactly if the tokens are a statement with that tree, the tree is at
most 256 nodes deep and no more than 256 parentheses are open at a time. A statement beyond one of
these limits is refused as too deep. -/
theorem readLine_reads_grammar {source : String} {line : Nat} {ts : List Lexeme}
    (ht : tokenize source line = .ok ts) (next : NodeId) (e : Expr) :
    ((∃ f, f.Alike e ∧ (readLine source line next).outcome = .ok (some f)) ↔
      Derives .statement (tokens ts) e ∧ e.depth ≤ 256 ∧ NestsWithin 256 (tokens ts)) ∧
    (Derives .statement (tokens ts) e → ¬ (e.depth ≤ 256 ∧ NestsWithin 256 (tokens ts)) →
      ∃ l, (readLine source line next).outcome = .error (.tooDeep l)) := by
  have hread : readLine source line next = readLexemes ts line (.start next) := by
    unfold readLine
    rw [ht]
  rw [hread]
  refine ⟨⟨?_, fun ⟨hd, hle, hw⟩ => ?_⟩, fun hd hlimit => ?_⟩
  · rintro ⟨f, hf, ho⟩
    obtain ⟨hd, hle, hw⟩ := derives_of_readLexemes ho
    exact ⟨hd.of_alike hf, hf.depth_eq ▸ hle, hw⟩
  · rcases readLexemes_of_derives hd with ⟨-, -, hf⟩ | ⟨hn, -⟩
    · exact hf
    · exact absurd ⟨hle, hw⟩ hn
  · rcases readLexemes_of_derives hd with ⟨hle, hw, -⟩ | ⟨-, hl⟩
    · exact absurd ⟨hle, hw⟩ hlimit
    · exact hl

/-- The word `print`, an assignment, a sign and parentheses on one line. -/
theorem readLine_reads_grammar_of_print :
    ∃ ts, tokenize "print x = -(y + z)" 1 = .ok ts ∧
      ∃ f, f.Alike (.print (.assign (.var "x" 0) (.unary .neg
          (.binary .add (.var "y" 0) (.var "z" 0) 0) 0) 0) 0) ∧
        (readLine "print x = -(y + z)" 1 7).outcome = .ok (some f) := by
  have hshape : (Expr.print (.assign (.var "x" 0) (.unary .neg
      (.binary .add (.var "y" 0) (.var "z" 0) 0) 0) 0) 0).Statement :=
    .print 0 (.assign "x" 0 0 (.value (.unary 0 rfl (.binary 0 rfl (.var "y" 0) (.var "z" 0)))))
  have hnames : ∀ name ∈ ["x", "y", "z"], IsName name := by
    simp only [List.forall_mem_cons]
    decide
  have hw := hshape.derives_spelling.written_of_leaves (fun _ h => nomatch h) hnames
  obtain ⟨ts, ht, hts⟩ := hshape.tokenize_text hw
  have htext : (Expr.print (.assign (.var "x" 0) (.unary .neg
      (.binary .add (.var "y" 0) (.var "z" 0) 0) 0) 0) 0).text = "print x = -(y + z)" := by rfl
  rw [htext] at ht
  refine ⟨ts, ht, (readLine_reads_grammar ht 7 _).1.mpr ⟨?_, by decide, ?_⟩⟩
  · rw [hts]
    exact hshape.derives_spelling
  · rw [hts]
    exact hshape.nests_spelling.nestsWithin (by decide)

/-! ## Texts of statements -/

namespace Expr

variable {e : Expr}

/-- **Reading the text of a statement gives the statement**, up to the numbers of its nodes, if its
leaves can be written and it is not too deep. -/
theorem Statement.readLine_text (h : e.Statement)
    (hv : ∀ v ∈ e.literals, ∃ m, v = .finite false m) (hn : ∀ name ∈ e.names, IsName name)
    (hd : e.depth ≤ nestingLimit) (line : Nat) (next : NodeId) :
    ∃ t, (readLine e.text line next).outcome = .ok (some t) ∧ t.Alike e := by
  have hw := h.derives_spelling.written_of_leaves hv hn
  obtain ⟨ts, ht, hts⟩ := h.tokenize_text hw
  have hderives : Derives .statement (tokens ts) e := hts ▸ h.derives_spelling
  have hnests : NestsWithin nestingLimit (tokens ts) := hts ▸ h.nests_spelling.nestsWithin hd
  rw [readLine_of_tokenize ht]
  rcases readLexemes_of_derives hderives with ⟨-, -, t, ha, ho⟩ | ⟨hlimit, -⟩
  · exact ⟨t, ho, ha⟩
  · exact absurd ⟨hd, hnests⟩ hlimit

end Expr

end LineCalc
