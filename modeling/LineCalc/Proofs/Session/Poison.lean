import LineCalc.Proofs.Session.Denotation

/-!
# Whatever fails shows

An error does not stop the evaluation of a tree. The node that raises it has the value `nan`, and
every operator makes `nan` of `nan`, so the root has that value too. This holds for all trees, also
for those that no line is read as.

* `Effect.Marked` says that an effect with an error has the value `nan`. The small steps have such
  effects, and behind an operator stands the value that it denotes, also if it raises an error.
* `Expr.marked_effect`: the effect of every tree is marked. The induction goes over all trees, with
  no regard to their shape.
* `Session.evaluate_eq_nan_of_error` is about evaluation behind the gate.
-/

namespace LineCalc

namespace Effect

/-- An error shows in the value. -/
def Marked (x : Effect) : Prop := x.errors ≠ [] → x.value = .nan

theorem marked_settle (s : Store) (result : Except EvalError Binary64) :
    (settle s result).Marked := by
  cases result with
  | ok value => exact fun h => absurd rfl h
  | error e => exact fun _ => rfl

theorem marked_read (s : Store) (name : String) (node : NodeId) : (read s name node).Marked := by
  unfold read
  cases s.lookup name with
  | ok value => exact fun h => absurd rfl h
  | error _ => exact fun _ => rfl

theorem marked_write (s : Store) (name : String) (value : Binary64) (node : NodeId) :
    (write s name value node).Marked := by
  unfold write
  cases s.assign name value with
  | ok store => exact fun h => absurd rfl h
  | error _ => exact fun _ => rfl

/-- Errors in front of a marked effect show if its value is `nan` because of them. -/
theorem Marked.after {x : Effect} {errors : List EvalError} (hx : x.Marked)
    (h : errors ≠ [] → x.value = .nan) : (x.after errors).Marked := by
  intro he
  by_cases hn : errors = []
  · have he' : x.errors ≠ [] := by simpa [Effect.after, hn] using he
    exact hx he'
  · exact h hn

/-! ## Operators -/

theorem value_settle_evalUnary (s : Store) (op : Operator) (x : Binary64) (node : NodeId) :
    (settle s (op.evalUnary x node)).value = op.denoteUnary x := by
  cases op <;> rfl

/-- An operator has its value also where it raises an error. -/
theorem value_settle_evalBinary (s : Store) (op : Operator) (x y : Binary64) (node : NodeId) :
    (settle s (op.evalBinary x y node)).value = op.denoteBinary x y := by
  cases op with
  | div | mod =>
    by_cases hy : y.isZero = true
    · rw [Operator.evalBinary, Operator.denoteBinary, if_pos hy, if_pos hy]
      rfl
    · rw [Operator.evalBinary, Operator.denoteBinary, if_neg hy, if_neg hy]
      rfl
  | _ => rfl

end Effect

/-- **An error in a tree shows in its value**, wherever in the tree it was raised. -/
theorem Expr.marked_effect (e : Expr) (s : Store) : (e.effect s).Marked := by
  induction e generalizing s with
  | literal value id => exact fun h => absurd rfl h
  | var name id => exact Effect.marked_read s name id
  | unary op operand id ih =>
    simp only [effect]
    refine (Effect.marked_settle _ _).after fun hn => ?_
    rw [Effect.value_settle_evalUnary, ih s hn, Operator.denoteUnary_nan]
  | binary op left right id ihl ihr =>
    simp only [effect]
    refine Effect.Marked.after ((Effect.marked_settle _ _).after fun hn => ?_) fun hn => ?_
    · rw [Effect.value_settle_evalBinary, ihr _ hn, Operator.denoteBinary_nan_right]
    · refine (Effect.value_settle_evalBinary _ _ _ _ _).trans ?_
      rw [ihl s hn, Operator.denoteBinary_nan_left]
  | assign target value id iht ihv =>
    cases target with
    | var name targetId =>
      simp only [effect]
      by_cases hc : s.contains name = true
      · rw [if_pos hc]
        -- Nothing is stored behind an error, and the inner value does not matter.
        by_cases he : (value.effect s).errors = []
        · rw [if_pos he]
          exact Effect.marked_write _ _ _ _
        · rw [if_neg he]
          exact fun _ => rfl
      · rw [if_neg hc]
        exact fun _ => rfl
    | _ => exact fun _ => rfl
  | print operand id ih => exact ih s

namespace Session

/-- **Whatever fails shows.** If errors are pending when a tree is to be evaluated, or if evaluating
it raises an error, then its value is `nan`. -/
theorem evaluate_eq_nan_of_error (s : Session) (e : Expr)
    (h : 0 < s.diagnostics.count ∨ s.diagnostics.count < (s.evaluate e).2.diagnostics.count) :
    (s.evaluate e).1 = .nan := by
  by_cases hp : s.raised = []
  · have hy := evaluate_yields hp e
    have hn : (e.effect s.store).errors ≠ [] := by
      intro hn
      rw [count_eq_length, count_eq_length, hy.raised, hn, hp] at h
      simp at h
    rw [hy.value, e.marked_effect s.store hn]
  · exact (evaluate_of_pending hp e).value

/-- A product with an assignment to a constant below signs, and a division sign before an
operand. -/
theorem evaluate_eq_nan_of_bad_nodes :
    let e : Expr := .print (.binary .mul (.unary .div (.literal (.zero false) 0) 1)
      (.unary .neg (.assign (.literal (.zero true) 2) (.literal (.zero false) 3) 4) 5) 6) 7
    ((start 0).evaluate e).2.raised =
        [.evaluation (.misplaced .div .unary 1),
          .evaluation (.malformed "assignment target is a literal node, expected a variable" 4)] ∧
      ((start 0).evaluate e).1 = .nan :=
  ⟨by decide, evaluate_eq_nan_of_error _ _ (Or.inr (by decide))⟩

end Session

end LineCalc
