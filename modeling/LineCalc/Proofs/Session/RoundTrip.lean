import LineCalc.Proofs.Phrase.Line
import LineCalc.Proofs.Session.Effect

/-!
# Writing and reading statements

The text of a statement is read as that statement, and evaluating what was read does what evaluating
the statement does.

* `Error.unnumbered` is an error without the number of its node, and `Expr.effect_unnumbered`: the
  numbers of a tree turn up in the errors of its effect and nowhere else.
* `Session.Agree` compares two trees by what their evaluation does in every session.
* `readLine_text_round_trip`: every statement within the limits is read back from its text, with an
  operator for every sign of a constant, and every tree that is read at all is read back as it is.
-/

namespace LineCalc

/-! ## Errors up to the numbers of nodes -/

/-- The error with the number of its node set to zero. -/
def EvalError.unnumbered : EvalError → EvalError
  | undefined name _ => undefined name 0
  | malformed details _ => malformed details 0
  | misplaced op kind _ => misplaced op kind 0
  | divisionByZero _ => divisionByZero 0
  | assignmentFailed name _ => assignmentFailed name 0

/-- The error with the number of its node, if it has one, set to zero. -/
def Error.unnumbered : Error → Error
  | evaluation e => evaluation e.unnumbered
  | e => e

namespace Effect

/-- The effect with the numbers of nodes set to zero. -/
def unnumbered (x : Effect) : Effect := { x with errors := x.errors.map EvalError.unnumbered }

variable {s : Store} {x y : Effect}

theorem unnumbered_after (x y : Effect) :
    (x.after y.errors).unnumbered = x.unnumbered.after y.unnumbered.errors := by
  simp only [unnumbered, after, List.map_append]

theorem unnumbered_errors_eq_nil_iff : x.unnumbered.errors = [] ↔ x.errors = [] :=
  List.map_eq_nil_iff

theorem unnumbered_read (s : Store) (name : String) (node : NodeId) :
    (read s name node).unnumbered = read s name 0 := by
  unfold read
  cases s.lookup name with
  | ok value => rfl
  | error _ => rfl

theorem unnumbered_write (s : Store) (name : String) (value : Binary64) (node : NodeId) :
    (write s name value node).unnumbered = write s name value 0 := by
  unfold write
  cases s.assign name value with
  | ok store => rfl
  | error _ => rfl

theorem unnumbered_settle_unary (s : Store) (op : Operator) (x : Binary64) (node : NodeId) :
    (settle s (op.evalUnary x node)).unnumbered = settle s (op.evalUnary x 0) := by
  cases op <;> rfl

theorem unnumbered_settle_binary (s : Store) (op : Operator) (x y : Binary64) (node : NodeId) :
    (settle s (op.evalBinary x y node)).unnumbered = settle s (op.evalBinary x y 0) := by
  by_cases hy : y.isZero = true
  · cases op <;> simp only [Operator.evalBinary, if_pos hy] <;> rfl
  · cases op <;> simp only [Operator.evalBinary, if_neg hy] <;> rfl

end Effect

namespace Expr

/-- The numbers of a tree turn up in the errors that it raises and nowhere else. -/
theorem effect_unnumbered (e : Expr) (s : Store) :
    e.unnumbered.effect s = (e.effect s).unnumbered := by
  induction e generalizing s with
  | literal value id => rfl
  | var name id => exact (Effect.unnumbered_read s name id).symm
  | unary op operand id ih =>
    simp only [unnumbered, effect, ih]
    rw [Effect.unnumbered_after, Effect.unnumbered_settle_unary]
    rfl
  | binary op left right id ihl ihr =>
    simp only [unnumbered, effect, ihl, ihr]
    rw [Effect.unnumbered_after, Effect.unnumbered_after, Effect.unnumbered_settle_binary]
    rfl
  | assign target value id iht ihv =>
    cases target with
    | var name targetId =>
      simp only [unnumbered, effect, ihv]
      by_cases hn : s.contains name = true
      · rw [if_pos hn, if_pos hn]
        by_cases he : (value.effect s).errors = []
        · rw [if_pos he, if_pos (Effect.unnumbered_errors_eq_nil_iff.mpr he),
            Effect.unnumbered_write]
          rfl
        · rw [if_neg he, if_neg (mt Effect.unnumbered_errors_eq_nil_iff.mp he)]
          rfl
      · rw [if_neg hn, if_neg hn]
        rfl
    | _ => rfl
  | print operand id ih => exact ih s

/-! ## Signs of constants -/

variable {e : Expr}

theorem Arithmetic.effect_explicitSigns (h : e.Arithmetic) (s : Store) :
    e.explicitSigns.effect s = e.effect s := by
  induction h generalizing s with
  | literal value id =>
    unfold Expr.explicitSigns
    split
    · simp only [effect, Operator.evalUnary, Binary64.neg_neg]
      rfl
    · rfl
  | var name id => rfl
  | unary id hop h ih => simp only [Expr.explicitSigns, effect, ih]
  | binary id hop hl hr ihl ihr => simp only [Expr.explicitSigns, effect, ihl, ihr]

theorem Assignment.effect_explicitSigns (h : e.Assignment) (s : Store) :
    e.explicitSigns.effect s = e.effect s := by
  induction h generalizing s with
  | value h => exact h.effect_explicitSigns s
  | assign name target id h ih => simp only [Expr.explicitSigns, effect, ih]

/-- Operators in place of signs change nothing in the effect of a statement. -/
theorem Statement.effect_explicitSigns (h : e.Statement) (s : Store) :
    e.explicitSigns.effect s = e.effect s := by
  cases h with
  | silent h => exact h.effect_explicitSigns s
  | print id h => exact h.effect_explicitSigns s

end Expr

/-! ## Agreement -/

namespace Session

/-- Evaluating the two trees gives the same value, the same store and, up to the numbers of nodes,
the same errors, in every session. -/
def Agree (e f : Expr) : Prop :=
  ∀ s : Session, (s.evaluate e).1 = (s.evaluate f).1 ∧
    (s.evaluate e).2.store = (s.evaluate f).2.store ∧
    (s.evaluate e).2.raised.map Error.unnumbered = (s.evaluate f).2.raised.map Error.unnumbered

/-- Trees agree if their effects do. -/
theorem agree_of_effect {e f : Expr}
    (h : ∀ s, (e.effect s).unnumbered = (f.effect s).unnumbered) : Agree e f := by
  intro s
  by_cases hp : s.raised = []
  · have he := evaluate_yields hp e
    have hf := evaluate_yields hp f
    have hx := h s.store
    simp only [Effect.unnumbered, Effect.mk.injEq] at hx
    have hcomp : Error.unnumbered ∘ Error.evaluation =
        Error.evaluation ∘ EvalError.unnumbered := by
      funext e
      rfl
    refine ⟨?_, ?_, ?_⟩
    · rw [he.value, hf.value, hx.1]
    · rw [he.store, hf.store, hx.2.1]
    · rw [he.raised, hf.raised, List.map_append, List.map_append, List.map_map, List.map_map, hcomp,
        ← List.map_map, ← List.map_map, hx.2.2]
  · have he := evaluate_of_pending hp e
    have hf := evaluate_of_pending hp f
    refine ⟨?_, ?_, ?_⟩
    · rw [he.value, hf.value]
    · rw [he.store, hf.store]
    · rw [he.raised, hf.raised]

/-- What was read from the text of a statement agrees with the statement. -/
theorem agree_of_alike_explicitSigns {t e : Expr} (h : e.Statement)
    (ht : t.Alike e.explicitSigns) : Agree t e := by
  apply agree_of_effect
  intro s
  have hnumbers : t.unnumbered.effect s = e.explicitSigns.unnumbered.effect s :=
    congrArg (Expr.effect · s) ht
  rw [Expr.effect_unnumbered, Expr.effect_unnumbered] at hnumbers
  rw [hnumbers, h.effect_explicitSigns]

end Session

/-! ## The round trip -/

/-- **Writing and reading are inverse.** A statement with finite constants, whose variables are
names, is read back from its text, up to the numbers of nodes and with an operator for every sign of
a constant, if it is at most 256 nodes deep with these operators. In every session, what is read
back does what the statement does. Every tree that any line yields is such a statement without a
sign to replace, and is read back as it is. -/
theorem readLine_text_round_trip :
    (∀ e : Expr, e.Statement → (∀ v ∈ e.literals, v.isFinite = true) →
      (∀ name ∈ e.names, IsName name) → e.explicitSigns.depth ≤ 256 →
      ∀ (line : Nat) (next : NodeId), ∃ t, (readLine e.text line next).outcome = .ok (some t) ∧
        t.Alike e.explicitSigns ∧ Session.Agree t e) ∧
    (∀ (source : String) (line : Nat) (next : NodeId) (t : Expr),
      (readLine source line next).outcome = .ok (some t) →
      t.Statement ∧ (∀ v ∈ t.literals, v.isFinite = true ∧ v.isNegative = false) ∧
        (∀ name ∈ t.names, IsName name) ∧
        ∀ (line' : Nat) (next' : NodeId), ∃ t',
          (readLine t.text line' next').outcome = .ok (some t') ∧ t'.Alike t) := by
  constructor
  · intro e h hv hn hd line next
    have hv' := Expr.exists_of_mem_literals_explicitSigns hv
    have hn' : ∀ name ∈ e.explicitSigns.names, IsName name := by
      rwa [Expr.names_explicitSigns]
    obtain ⟨t, ht, ha⟩ := h.explicitSigns.readLine_text hv' hn' hd line next
    rw [Expr.text_explicitSigns] at ht
    exact ⟨t, ht, ha, Session.agree_of_alike_explicitSigns h ha⟩
  · intro source line next t ht
    obtain ⟨_, -, hderives, hd⟩ := derives_of_readLine ht
    obtain ⟨hv, hn⟩ := leaves_of_readLine ht
    refine ⟨hderives.shape, ?_, hn, hderives.shape.readLine_text hv hn hd⟩
    intro v hm
    obtain ⟨m, rfl⟩ := hv v hm
    exact ⟨rfl, rfl⟩

/-- A negative zero below the word `print` and an assignment; what is read from its text is read
back once more. -/
theorem readLine_text_round_trip_of_negative_zero :
    ∃ t t', (readLine (Expr.print (.assign (.var "x" 1)
        (.binary .sub (.var "y" 2) (.literal (.zero true) 3) 4) 5) 6).text 1 7).outcome =
          .ok (some t) ∧
      t.Alike (.print (.assign (.var "x" 0)
        (.binary .sub (.var "y" 0) (.unary .neg (.literal (.zero false) 0) 0) 0) 0) 0) ∧
      (readLine t.text 2 20).outcome = .ok (some t') ∧ t'.Alike t := by
  have hshape : (Expr.print (.assign (.var "x" 1)
      (.binary .sub (.var "y" 2) (.literal (.zero true) 3) 4) 5) 6).Statement :=
    .print 6 (.assign "x" 1 5 (.value (.binary 4 rfl (.var "y" 2) (.literal _ 3))))
  have hnames : ∀ name ∈ ["x", "y"], IsName name :=
    List.forall_mem_cons.mpr ⟨by decide, List.forall_mem_singleton.mpr (by decide)⟩
  obtain ⟨t, ht, ha, -⟩ := readLine_text_round_trip.1 _ hshape (by decide) hnames (by decide) 1 7
  obtain ⟨-, -, -, hback⟩ := readLine_text_round_trip.2 _ _ _ _ ht
  obtain ⟨t', ht', ha'⟩ := hback 2 20
  exact ⟨t, t', ht, ha, ht', ha'⟩

end LineCalc
