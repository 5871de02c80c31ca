import LineCalc.Proofs.Session.Footprint

/-!
# Assignments to declared variables

The variables that a tree assigns to are declared in front of its evaluation, and no declaration is
taken away on the way. So an assignment finds its variable declared when it starts, and still
declared when its value is there: the store refuses none, and what is undefined is a variable that
the tree only reads.

* `EvalError.ArisesIn` says what an error of evaluation has to be to arise from a tree. An undefined
  variable is a node of the tree whose name is not declared, and the store raises no error.
* `Expr.arisesIn_of_mem_effect`: the errors of every tree in every store are of that kind.
* `Session.declarations_complete` is about evaluation behind the gate, with and without the
  declarations in front of it.
-/

namespace LineCalc

theorem Store.contains_eq_false_iff {s : Store} {name : String} :
    s.contains name = false ↔ s.get? name = none :=
  Option.isSome_eq_false_iff.trans Option.isNone_iff_eq_none

namespace EvalError

/-- What an error has to be to arise from a tree in a store. Errors of operators and nodes are not
restricted. -/
def ArisesIn (e : Expr) (s : Store) : EvalError → Prop
  | undefined name node => .var name node ∈ e.preorder ∧ s.contains name = false
  | assignmentFailed _ _ => False
  | _ => True

variable {e f : Expr} {s t : Store} {x : EvalError}

/-- An error of a part of a tree is one of the tree. -/
theorem ArisesIn.mono (h : x.ArisesIn e t) (hnodes : ∀ n ∈ e.preorder, n ∈ f.preorder)
    (hst : ∀ name, t.contains name = s.contains name) : x.ArisesIn f s := by
  cases x with
  | undefined name node => exact ⟨hnodes _ h.1, hst name ▸ h.2⟩
  | assignmentFailed name node => exact h.elim
  | _ => trivial

theorem arisesIn_of_evalUnary {op : Operator} {v : Binary64} {node : NodeId}
    (h : op.evalUnary v node = .error x) : x.ArisesIn e s := by
  cases op <;> cases h <;> trivial

theorem arisesIn_of_evalBinary {op : Operator} {v w : Binary64} {node : NodeId}
    (h : op.evalBinary v w node = .error x) : x.ArisesIn e s := by
  cases op with
  | div | mod =>
    simp only [Operator.evalBinary] at h
    split at h
    · cases h
      trivial
    · cases h
  | _ => cases h <;> trivial

end EvalError

theorem Effect.eq_error_of_mem_settle {s : Store} {result : Except EvalError Binary64}
    {x : EvalError} (h : x ∈ (settle s result).errors) : result = .error x := by
  cases result with
  | ok value => cases h
  | error e => rw [List.mem_singleton.mp h]

namespace Expr

/-- **The errors of a tree arise from its nodes.** The store never refuses a value, and what is
undefined is not declared. -/
theorem arisesIn_of_mem_effect (e : Expr) (s : Store) :
    ∀ x ∈ (e.effect s).errors, x.ArisesIn e s := by
  induction e generalizing s with
  | literal value id => exact List.forall_mem_nil _
  | var name id =>
    intro x hx
    simp only [effect, Effect.read, Store.lookup] at hx
    cases hv : s.get? name with
    | some v =>
      rw [hv] at hx
      cases hx
    | none =>
      rw [hv] at hx
      rw [List.mem_singleton.mp hx]
      exact ⟨List.mem_cons_self, Store.contains_eq_false_iff.mpr hv⟩
  | unary op operand id ih =>
    refine List.forall_mem_append.mpr ⟨fun x hx => ?_, fun x hx => ?_⟩
    · exact (ih s x hx).mono (fun _ => List.mem_cons_of_mem _) fun _ => rfl
    · exact EvalError.arisesIn_of_evalUnary (Effect.eq_error_of_mem_settle hx)
  | binary op left right id ihl ihr =>
    refine List.forall_mem_append.mpr ⟨fun x hx => ?_, List.forall_mem_append.mpr
      ⟨fun x hx => ?_, fun x hx => ?_⟩⟩
    · exact (ihl s x hx).mono
        (fun _ h => List.mem_append_left _ (List.mem_cons_of_mem _ h)) fun _ => rfl
    · exact (ihr _ x hx).mono (fun _ => List.mem_append_right _) (left.contains_effect s)
    · exact EvalError.arisesIn_of_evalBinary (Effect.eq_error_of_mem_settle hx)
  | assign target value id iht ihv =>
    cases target with
    | var name targetId =>
      have hvalue : ∀ x ∈ (value.effect s).errors,
          x.ArisesIn (assign (var name targetId) value id) s := fun x hx =>
        (ihv s x hx).mono (fun _ h => List.mem_append_right _ h) fun _ => rfl
      simp only [effect]
      by_cases hc : s.contains name = true
      · rw [if_pos hc]
        by_cases he : (value.effect s).errors = []
        · -- The variable is still declared when its value is stored.
          rw [if_pos he, Effect.write_of_contains ((value.contains_effect s name).trans hc)]
          exact List.forall_mem_nil _
        · rw [if_neg he]
          exact hvalue
      · rw [if_neg hc]
        refine List.forall_mem_singleton.mpr ⟨?_, Bool.not_eq_true _ ▸ hc⟩
        exact List.mem_append_left _ (List.mem_cons_of_mem _ List.mem_cons_self)
    | _ => exact List.forall_mem_singleton.mpr trivial
  | print operand id ih =>
    intro x hx
    exact (ih s x hx).mono (fun _ => List.mem_cons_of_mem _) fun _ => rfl

/-- The name of an assignment in a tree is among those that the tree assigns to. -/
theorem mem_targets_of_mem_preorder {e value : Expr} {name : String} {target id : NodeId}
    (h : assign (var name target) value id ∈ e.preorder) : name ∈ e.targets :=
  List.mem_filterMap.mpr ⟨_, h, rfl⟩

end Expr

namespace Session

variable {s : Session}

/-- The errors of an evaluation behind the gate arise from the tree. -/
theorem arisesIn_of_evaluate (h : s.raised = []) {e : Expr} {x : EvalError}
    (hx : .evaluation x ∈ (s.evaluate e).2.raised) : x.ArisesIn e s.store := by
  rw [(evaluate_yields h e).raised, h, List.nil_append] at hx
  obtain ⟨_, hmem, ⟨⟩⟩ := List.mem_map.mp hx
  exact e.arisesIn_of_mem_effect s.store x hmem

/-- A name that is not declared behind the declarations was not declared in front of them, and the
tree does not assign to it. -/
theorem not_declared_of_declareTargets {e : Expr} {name : String}
    (h : (s.declareTargets e).store.contains name = false) :
    s.store.contains name = false ∧ name ∉ e.targets := by
  rw [Store.contains_eq_false_iff, get?_declareTargets, Option.or_eq_none_iff] at h
  refine ⟨Store.contains_eq_false_iff.mpr h.1, fun hm => ?_⟩
  rw [if_pos hm] at h
  cases h.2

/-- **The declarations in front of an evaluation are complete.** If no errors are pending, then the
store refuses no value of an assignment, whether or not the variables of the tree have been
declared. If they have, then no assignment finds its variable undefined, and every undefined
variable is one that the tree reads, was not declared before, and is not assigned to in the tree. -/
theorem declarations_complete (h : s.raised = []) (e : Expr) :
    (∀ name node, .evaluation (.assignmentFailed name node) ∉ (s.evaluate e).2.raised) ∧
    (∀ name node,
      .evaluation (.assignmentFailed name node) ∉ ((s.declareTargets e).evaluate e).2.raised) ∧
    (∀ name target value id, .assign (.var name target) value id ∈ e.preorder →
      .evaluation (.undefined name target) ∉ ((s.declareTargets e).evaluate e).2.raised) ∧
    ∀ name node, .evaluation (.undefined name node) ∈ ((s.declareTargets e).evaluate e).2.raised →
      .var name node ∈ e.preorder ∧ s.store.contains name = false ∧ name ∉ e.targets := by
  have hd : (s.declareTargets e).raised = [] := (raised_declareTargets s e).trans h
  have hundefined : ∀ name node,
      .evaluation (.undefined name node) ∈ ((s.declareTargets e).evaluate e).2.raised →
        .var name node ∈ e.preorder ∧ s.store.contains name = false ∧ name ∉ e.targets := by
    intro name node hx
    obtain ⟨hnode, hname⟩ := arisesIn_of_evaluate hd hx
    exact ⟨hnode, not_declared_of_declareTargets hname⟩
  refine ⟨fun name node hx => arisesIn_of_evaluate h hx,
    fun name node hx => arisesIn_of_evaluate hd hx, ?_, hundefined⟩
  intro name target value id ha hx
  exact (hundefined name target hx).2.2 (Expr.mem_targets_of_mem_preorder ha)

/-- A variable that is read in front of the assignment to it, one that is never assigned to, and an
assignment to a constant: only the second one is undefined. -/
theorem declarations_complete_of_bad_target :
    let e : Expr := .assign (.var "x" 0) (.binary .add (.var "x" 1) (.binary .mul
      (.assign (.literal (.zero false) 2) (.var "z" 3) 4) (.var "y" 5) 6) 7) 8
    let s := start 0
    (s.raised = [] ∧ ((s.declareTargets e).evaluate e).2.raised =
        [.evaluation (.malformed "assignment target is a literal node, expected a variable" 4),
          .evaluation (.undefined "y" 5)]) ∧
      .evaluation (.assignmentFailed "x" 8) ∉ ((s.declareTargets e).evaluate e).2.raised ∧
      .evaluation (.undefined "x" 0) ∉ ((s.declareTargets e).evaluate e).2.raised ∧
      s.store.contains "y" = false ∧ "y" ∉ e.targets := by
  intro e s
  have hraised : ((s.declareTargets e).evaluate e).2.raised =
      [.evaluation (.malformed "assignment target is a literal node, expected a variable" 4),
        .evaluation (.undefined "y" 5)] := by decide +kernel
  have hy : .evaluation (.undefined "y" 5) ∈ ((s.declareTargets e).evaluate e).2.raised := by
    rw [hraised]
    decide
  obtain ⟨-, hstored, htarget, hundefined⟩ := declarations_complete (s := s) rfl e
  exact ⟨⟨rfl, hraised⟩, hstored "x" 8, htarget "x" 0 _ 8 List.mem_cons_self,
    (hundefined "y" 5 hy).2⟩

end Session

end LineCalc
