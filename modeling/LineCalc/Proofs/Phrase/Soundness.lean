import LineCalc.Proofs.Phrase.Depth
import LineCalc.Proofs.Phrase.Derivation

/-!
# What is read is a phrase

A reader takes lexemes from the front of a list. If it yields a tree, then the lexemes that it took
are a phrase of its kind with that tree, and the tree is within the limit.

* `Phrase.Sound p c` says so of the reader `p` and the kind `c`, and `Phrase.ClosesGroup` of a
  reader for what stands behind an opening parenthesis.
* One lemma for each operation on readers: `Phrase.sound_operand`, `Phrase.sound_signed`,
  `Phrase.sound_chain`, `Phrase.sound_assigned` and `Phrase.sound_printed`.
* `Phrase.sound_expression` and `Phrase.sound_statement` put them together. The induction is on the
  number of parentheses that may be open; what it is does not matter.
-/

namespace LineCalc

/-- The tokens of lexemes. -/
abbrev tokens (ts : List Lexeme) : List Token := ts.map Lexeme.token

theorem tokens_cons (t : Lexeme) (ts : List Lexeme) : tokens (t :: ts) = t.token :: tokens ts := rfl

/-- A tree that was put on top of another one is within the limit. -/
theorem Reply.grow_eq_ok {r : Reply} {line : Nat} {make : Expr → Numbering → Expr × Numbering}
    {e : Expr} (h : (r.grow line make).outcome = .ok e) :
    ∃ f, r.outcome = .ok f ∧ e = (make f r.nodes).1 ∧ e.depth ≤ nestingLimit := by
  unfold grow at h
  split at h
  · rename_i error he
    rw [he] at h
    cases h
  · rename_i f hf
    split at h
    · cases h
    · rename_i hd
      cases h
      exact ⟨f, hf, rfl, Nat.le_of_not_lt hd⟩

namespace Phrase

/-- Whatever the reader takes is a phrase of the given kind with the tree that it yields, and the
tree is within the limit. -/
def Sound (p : Phrase) (c : Category) : Prop :=
  ∀ ts k e, (p.read ts k).outcome = .ok e →
    ∃ taken, ts = taken ++ (p.read ts k).rest ∧ Derives c (tokens taken) e ∧
      e.depth ≤ nestingLimit

/-- Whatever the readers take is an expression and the parenthesis that closes it. -/
def ClosesGroup (group : Nat → Phrase) : Prop :=
  ∀ line ts k e, ((group line).read ts k).outcome = .ok e →
    ∃ taken l, ts = taken ++ ⟨.closing, l⟩ :: ((group line).read ts k).rest ∧
      Derives .expression (tokens taken) e ∧ e.depth ≤ nestingLimit

theorem one_le_nestingLimit : 1 ≤ nestingLimit := by decide

theorem sound_operand {group : Nat → Phrase} (hg : ClosesGroup group) :
    Sound (operand group) .operand := by
  intro ts k e h
  simp only [operand] at h ⊢
  unfold readOperand at h ⊢
  split at h
  · cases h
  · rename_i k value l ts
    cases h
    exact ⟨[⟨.number value, l⟩], rfl, .number value _, one_le_nestingLimit⟩
  · rename_i k name l ts
    cases h
    exact ⟨[⟨.identifier name, l⟩], rfl, .name name _, one_le_nestingLimit⟩
  · rename_i line ts
    obtain ⟨taken, l, hts, he, hd⟩ := hg line ts k e h
    refine ⟨⟨.opening, line⟩ :: taken ++ [⟨.closing, l⟩], ?_, ?_, hd⟩
    · simp only [List.cons_append, List.append_assoc, List.nil_append]
      exact congrArg _ hts
    · simpa [tokens] using he.group
  · cases h

theorem sound_signed {p : Phrase} (hp : Sound p .operand) : Sound (signed p) .factor := by
  intro ts
  simp only [read_signed]
  induction ts with
  | nil =>
    intro k e h
    obtain ⟨taken, hts, he, hd⟩ := hp [] k e h
    exact ⟨taken, hts, he.plain, hd⟩
  | cons t ts ih =>
    intro k e h
    unfold readSigned at h ⊢
    split at h
    · rename_i op hop
      obtain ⟨f, hf, rfl, hd⟩ := Reply.grow_eq_ok h
      obtain ⟨taken, hts, he, -⟩ := ih k f hf
      refine ⟨t :: taken, ?_, .sign _ (ofPrefixSign?_eq_some_iff.mp hop) he, hd⟩
      rw [Reply.rest_grow, List.cons_append, ← hts]
    · obtain ⟨taken, hts, he, hd⟩ := hp (t :: ts) k e h
      exact ⟨taken, hts, he.plain, hd⟩

section Chain

variable {operator? : Token → Option Operator} {p : Phrase} {inner outer : Category}

/-- The rest of a chain goes on with whatever stands before it. -/
theorem sound_readChain (hp : Sound p inner)
    (hnext : ∀ {ts us e f t op} (id : NodeId), Derives outer ts e → operator? t = some op →
      Derives inner us f → Derives outer (ts ++ t :: us) (.binary op e f id))
    {left e : Expr} {ts : List Lexeme} {k : Numbering} {before : List Token}
    (hl : Derives outer before left) (hd : left.depth ≤ nestingLimit)
    (h : (readChain operator? p left ts k).outcome = .ok e) :
    ∃ taken, ts = taken ++ (readChain operator? p left ts k).rest ∧
      Derives outer (before ++ tokens taken) e ∧ e.depth ≤ nestingLimit := by
  fun_induction readChain operator? p left ts k generalizing before with
  | case1 left k =>
    cases h
    exact ⟨[], rfl, by simpa using hl, hd⟩
  | case2 left k t ts hop =>
    cases h
    exact ⟨[], rfl, by simpa using hl, hd⟩
  | case3 left k t ts op hop r error =>
    rename_i he
    rw [he] at h
    cases h
  | case4 left k t ts op hop r joined hj =>
    rename_i ih
    obtain ⟨f, hf, rfl, hd⟩ := Reply.grow_eq_ok hj
    obtain ⟨right, hts, hr, -⟩ := hp ts k f hf
    obtain ⟨taken, hrest, he, hde⟩ := ih (hnext _ hl hop hr) hd h
    refine ⟨t :: right ++ taken, ?_, by simpa [tokens] using he, hde⟩
    rw [List.append_assoc, ← hrest]
    simp only [r, Reply.rest_grow, List.cons_append]
    rw [← hts]

theorem sound_chain (hp : Sound p inner)
    (hfirst : ∀ {ts e}, Derives inner ts e → Derives outer ts e)
    (hnext : ∀ {ts us e f t op} (id : NodeId), Derives outer ts e → operator? t = some op →
      Derives inner us f → Derives outer (ts ++ t :: us) (.binary op e f id)) :
    Sound (chain operator? p) outer := by
  intro ts k e h
  simp only [read_chain, Reply.andThen] at h ⊢
  split at h
  · rename_i error he
    rw [he] at h
    cases h
  · rename_i left hl
    obtain ⟨first, hts, hf, hd⟩ := hp ts k left hl
    obtain ⟨taken, hrest, he, hde⟩ := sound_readChain hp hnext (hfirst hf) hd h
    refine ⟨first ++ taken, ?_, by simpa [tokens] using he, hde⟩
    rw [List.append_assoc, ← hrest]
    exact hts

end Chain

theorem closesGroup_closed {p : Phrase} (hp : Sound p .expression) :
    ClosesGroup fun line => closed line p := by
  intro line ts k e h
  simp only [closed] at h ⊢
  unfold close at h ⊢
  split at h
  · rename_i error he
    rw [he] at h
    cases h
  · rename_i f hf
    obtain ⟨taken, hts, he, hd⟩ := hp ts k f hf
    split at h
    · rename_i l rest hr
      rw [hf] at h
      cases h
      refine ⟨taken, l, ?_, he, hd⟩
      rw [← hr]
      exact hts
    · cases h
    · cases h

theorem sound_term {group : Nat → Phrase} (hg : ClosesGroup group) : Sound (term group) .term :=
  sound_chain (sound_signed (sound_operand hg)) .firstFactor fun id hl hs hr =>
    .nextFactor id hl (ofFactorSign?_eq_some_iff.mp hs) hr

theorem sound_sum {group : Nat → Phrase} (hg : ClosesGroup group) : Sound (sum group) .expression :=
  sound_chain (sound_term hg) .firstTerm fun id hl hs hr =>
    .nextTerm id hl (ofTermSign?_eq_some_iff.mp hs) hr

theorem closesGroup_group (nesting : Nat) : ClosesGroup (group nesting) := by
  induction nesting with
  | zero =>
    intro line ts k e h
    cases h
  | succ nesting ih => exact closesGroup_closed (sound_sum ih)

theorem sound_expression (nesting : Nat) : Sound (expression nesting) .expression :=
  sound_sum (closesGroup_group nesting)

theorem sound_assigned {p : Phrase} (hp : Sound p .expression) :
    Sound (assigned p) .assignment := by
  intro ts k e h
  simp only [read_assigned] at h ⊢
  fun_induction readAssigned p ts k generalizing e with
  | case1 name line l ts k ih =>
    obtain ⟨f, hf, rfl, hd⟩ := Reply.grow_eq_ok h
    obtain ⟨taken, hts, he, -⟩ := ih f hf
    refine ⟨⟨.identifier name, line⟩ :: ⟨.equals, l⟩ :: taken, ?_, .assign name _ _ he, hd⟩
    rw [Reply.rest_grow, List.cons_append, List.cons_append, ← hts]
  | case2 ts k =>
    obtain ⟨taken, hts, he, hd⟩ := hp _ _ e h
    exact ⟨taken, hts, he.value, hd⟩

theorem sound_printed {p : Phrase} (hp : Sound p .assignment) : Sound (printed p) .statement := by
  intro ts k e h
  simp only [read_printed] at h ⊢
  unfold readPrinted at h ⊢
  split at h
  · rename_i line ts
    obtain ⟨f, hf, rfl, hd⟩ := Reply.grow_eq_ok h
    obtain ⟨taken, hts, he, -⟩ := hp ts k f hf
    refine ⟨⟨.print, line⟩ :: taken, ?_, .print _ he, hd⟩
    rw [Reply.rest_grow, List.cons_append, ← hts]
  · obtain ⟨taken, hts, he, hd⟩ := hp _ _ e h
    exact ⟨taken, hts, he.silent, hd⟩

/-- **What is read as a statement is a statement**, however many parentheses may be open. -/
theorem sound_statement (nesting : Nat) : Sound (statement nesting) .statement :=
  sound_printed (sound_assigned (sound_expression nesting))

end Phrase

end LineCalc
