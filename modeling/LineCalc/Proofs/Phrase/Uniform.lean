import LineCalc.Proofs.Expr.Alike
import LineCalc.Proofs.Phrase.Depth

/-!
# Reading does not look at numbers

The nodes that were made before have no influence on what is read, on what is left, or on what is
wrong. They only decide how the new nodes are numbered.

* `Reply.Alike` compares two replies up to the numbers of nodes, and `Phrase.Uniform` says of a
  reader that its replies to the same lexemes are alike.
* One lemma for each operation on readers, and `Phrase.uniform_statement` puts them together.
* `readLine_alike`: two texts with the same tokens are read alike, whatever the numbers.
-/

namespace LineCalc

/-- Two replies that differ in nothing but the numbers of nodes. -/
inductive Reply.Alike : Reply → Reply → Prop
  | ok {e f : Expr} {rest : List Lexeme} {k k' : Numbering} (h : e.Alike f) :
      Alike ⟨.ok e, rest, k⟩ ⟨.ok f, rest, k'⟩
  | error {x : SyntaxError} {rest : List Lexeme} {k k' : Numbering} :
      Alike ⟨.error x, rest, k⟩ ⟨.error x, rest, k'⟩

namespace Reply

variable {r r' : Reply}

/-- What is put on top of trees that are alike is refused for both or for none of them. -/
theorem Alike.grow {make make' : Expr → Numbering → Expr × Numbering} (h : r.Alike r')
    (hmake : ∀ e f k k', e.Alike f → (make e k).1.Alike (make' f k').1) (line : Nat) :
    (r.grow line make).Alike (r'.grow line make') := by
  cases h with
  | error => exact .error
  | @ok e f rest k k' h =>
    have hmade := hmake e f k k' h
    simp only [Reply.grow, hmade.depth_eq]
    split
    · exact .error
    · exact .ok hmade

end Reply

namespace Phrase

/-- The replies of the reader to the same lexemes are alike. -/
def Uniform (p : Phrase) : Prop := ∀ ts k k', (p.read ts k).Alike (p.read ts k')

variable {p : Phrase}

theorem uniform_refused (line : Nat) : Uniform (refused line) := fun _ _ _ => .error

theorem uniform_operand {group : Nat → Phrase} (hg : ∀ line, Uniform (group line)) :
    Uniform (operand group) := by
  intro ts k k'
  simp only [operand]
  unfold readOperand
  split
  · exact .error
  · exact .ok (.literal _ _ _)
  · exact .ok (.var _ _ _)
  · exact hg _ _ _ _
  · exact .error

theorem uniform_closed (hp : Uniform p) (line : Nat) : Uniform (closed line p) := by
  intro ts k k'
  have h := hp ts k k'
  simp only [closed]
  generalize p.read ts k = r at h
  generalize p.read ts k' = r' at h
  cases h with
  | error => exact .error
  | @ok e f rest k k' h =>
    simp only [close]
    split
    · exact .ok h
    · exact .error
    · exact .error

theorem uniform_signed (hp : Uniform p) : Uniform (signed p) := by
  intro ts k k'
  simp only [read_signed]
  induction ts with
  | nil => exact hp [] k k'
  | cons t ts ih =>
    unfold readSigned
    cases Operator.ofPrefixSign? t.token with
    | none => exact hp (t :: ts) k k'
    | some op => exact ih.grow (fun e f _ _ h => h.unary op _ _) t.line

/-- The left parts of a chain may differ in their numbers, and then its rest is read alike. -/
theorem alike_readChain {operator? : Token → Option Operator} (hp : Uniform p) {left left' : Expr}
    (hl : left.Alike left') (ts : List Lexeme) (k k' : Numbering) :
    (readChain operator? p left ts k).Alike (readChain operator? p left' ts k') := by
  match ts with
  | [] =>
    rw [readChain, readChain]
    exact .ok hl
  | t :: ts =>
    rw [readChain, readChain]
    cases operator? t.token with
    | none => exact .ok hl
    | some op =>
      have hr : ((p.read ts k).grow t.line fun right k => k.make (.binary op left right)).Alike
          ((p.read ts k').grow t.line fun right k => k.make (.binary op left' right)) :=
        (hp ts k k').grow (fun e f _ _ h => hl.binary h op _ _) t.line
      have hrest : ((p.read ts k).grow t.line fun right k =>
          k.make (.binary op left right)).rest.length ≤ ts.length := by
        rw [Reply.rest_grow]
        exact (p.rest_suffix ts k).length_le
      dsimp only
      generalize (p.read ts k).grow t.line _ = r at hr hrest ⊢
      generalize (p.read ts k').grow t.line _ = r' at hr ⊢
      cases hr with
      | error => exact .error
      | ok hj => exact alike_readChain hp hj _ _ _
termination_by ts.length
decreasing_by exact Nat.lt_succ_of_le hrest

theorem uniform_chain {operator? : Token → Option Operator} (hp : Uniform p) :
    Uniform (chain operator? p) := by
  intro ts k k'
  have h := hp ts k k'
  simp only [read_chain, Reply.andThen]
  generalize p.read ts k = r at h
  generalize p.read ts k' = r' at h
  cases h with
  | error => exact .error
  | ok h => exact alike_readChain hp h _ _ _

theorem uniform_assigned (hp : Uniform p) : Uniform (assigned p) := by
  intro ts k k'
  simp only [read_assigned]
  fun_induction readAssigned p ts k with
  | case1 name line l ts k ih =>
    rw [readAssigned]
    exact ih.grow (fun e f _ _ h => h.assign name _ _ _ _) line
  | case2 ts k hts =>
    rw [readAssigned]
    · exact hp ts k k'
    · exact hts

theorem uniform_printed (hp : Uniform p) : Uniform (printed p) := by
  intro ts k k'
  simp only [read_printed]
  unfold readPrinted
  split
  · exact (hp _ k k').grow (fun e f _ _ h => h.print _ _) _
  · exact hp _ k k'

theorem uniform_group (nesting line : Nat) : Uniform (group nesting line) := by
  induction nesting generalizing line with
  | zero => exact uniform_refused line
  | succ nesting ih =>
    exact uniform_closed (uniform_chain (uniform_chain (uniform_signed (uniform_operand ih)))) line

theorem uniform_expression (nesting : Nat) : Uniform (expression nesting) :=
  uniform_chain (uniform_chain (uniform_signed (uniform_operand (uniform_group nesting))))

/-- **A statement is read alike, whatever was made before.** -/
theorem uniform_statement (nesting : Nat) : Uniform (statement nesting) :=
  uniform_printed (uniform_assigned (uniform_expression nesting))

end Phrase

/-! ## Lines -/

/-- Two outcomes of reading a line that differ in nothing but the numbers of nodes. -/
inductive AlikeOutcomes :
    Except SyntaxError (Option Expr) → Except SyntaxError (Option Expr) → Prop
  | blank : AlikeOutcomes (.ok none) (.ok none)
  | statement {e f : Expr} (h : e.Alike f) : AlikeOutcomes (.ok (some e)) (.ok (some f))
  | error {x : SyntaxError} : AlikeOutcomes (.error x) (.error x)

theorem Reply.Alike.lineOutcome {r r' : Reply} (h : r.Alike r') (line : Nat) :
    AlikeOutcomes (lineOutcome line r) (lineOutcome line r') := by
  cases h with
  | @error x rest k k' =>
    cases x <;> exact .error
  | @ok e f rest k k' h =>
    cases rest with
    | nil => exact .statement h
    | cons t rest => exact .error

/-- **Lines with the same tokens are read alike**, whatever the numbers of their nodes. -/
theorem readLine_alike {source source' : String} {line : Nat}
    (h : tokenize source line = tokenize source' line) (next next' : NodeId) :
    AlikeOutcomes (readLine source line next).outcome (readLine source' line next').outcome := by
  unfold readLine
  rw [← h]
  cases tokenize source line with
  | error x => exact .error
  | ok ts =>
    simp only [readLexemes]
    split
    · exact .blank
    · split
      · exact .error
      · exact (Phrase.uniform_statement ts.length ts _ _).lineOutcome line

end LineCalc
