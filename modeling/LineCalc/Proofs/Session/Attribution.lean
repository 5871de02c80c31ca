import Mathlib.Data.List.Forall2
import LineCalc.Proofs.Session.Declaration

/-!
# Errors and their nodes

An error of evaluation carries the number of the node that it arose at. In a tree that is built by
hand several nodes may have one number, so a number does not tell which node that was. The order of
the errors does: they arise at nodes further and further down the list of all nodes in which
children stand before their parents, which is the order of a listing.

* `EvalError.ArisesAt` says what a node has to be for an error to arise at it: a variable of that
  name, a node with that operator, a division or remainder, or an assignment to something else than
  a variable.
* `Attributed` says that errors arise at nodes from a list, in its order and at no place twice.
* `Expr.attributed_effect`: the errors of every tree in every store are attributed to its nodes, by
  induction on the tree. What is left out after an error are whole subtrees, and a list that has
  fewer errors is attributed all the more.
* `Session.evaluate_attributes_errors` is about evaluation behind the gate, with the places in the
  list of nodes.
-/

namespace LineCalc

/-! ## One error and its node -/

namespace EvalError

/-- The error is one that can arise at the given node. -/
def ArisesAt : EvalError → Expr → Prop
  | undefined name node, n => n = .var name node
  | malformed details node, n =>
    ∃ target value, n = .assign target value node ∧ target.kind ≠ .var ∧
      details = Session.badTarget target.kind
  | misplaced op kind node, n =>
    (∃ operand, n = .unary op operand node ∧ kind = .unary ∧ op.isUnary = false) ∨
      ∃ left right, n = .binary op left right node ∧ kind = .binary ∧ op.isBinary = false
  | divisionByZero node, n => ∃ op left right, n = .binary op left right node ∧ op.isDivision = true
  | assignmentFailed _ _, _ => False

variable {x : EvalError} {n : Expr}

/-- An error carries the number of its node. -/
theorem ArisesAt.node_eq (h : x.ArisesAt n) : x.node = n.id := by
  cases x with
  | undefined name node => exact h ▸ rfl
  | malformed details node =>
    obtain ⟨target, value, rfl, -⟩ := h
    rfl
  | misplaced op kind node =>
    rcases h with ⟨operand, rfl, -⟩ | ⟨left, right, rfl, -⟩ <;> rfl
  | divisionByZero node =>
    obtain ⟨op, left, right, rfl, -⟩ := h
    rfl
  | assignmentFailed name node => exact h.elim

theorem arisesAt_of_evalUnary {op : Operator} {v : Binary64} {node : NodeId} (operand : Expr)
    (h : op.evalUnary v node = .error x) : x.ArisesAt (.unary op operand node) := by
  cases op with
  | abs | neg => cases h
  | _ =>
    cases h
    exact Or.inl ⟨operand, rfl, rfl, rfl⟩

theorem arisesAt_of_evalBinary {op : Operator} {v w : Binary64} {node : NodeId} (left right : Expr)
    (h : op.evalBinary v w node = .error x) : x.ArisesAt (.binary op left right node) := by
  cases op with
  | add | sub | mul => cases h
  | div | mod =>
    simp only [Operator.evalBinary] at h
    split at h
    · cases h
      exact ⟨_, left, right, rfl, rfl⟩
    · cases h
  | abs | neg =>
    cases h
    exact Or.inr ⟨left, right, rfl, rfl, rfl⟩

end EvalError

/-! ## Errors in the order of nodes -/

/-- The errors arise at nodes from the list, in its order and at no place twice. -/
def Attributed (errors : List EvalError) (nodes : List Expr) : Prop :=
  errors.SublistForall₂ EvalError.ArisesAt nodes

namespace Attributed

variable {errors errors' : List EvalError} {nodes nodes' : List Expr} {n : Expr}

theorem nil (nodes : List Expr) : Attributed [] nodes := List.SublistForall₂.nil

/-- The places of the errors in the list of nodes. -/
theorem exists_places (h : Attributed errors nodes) :
    ∃ places : List (Fin nodes.length), places.Pairwise (· < ·) ∧
      errors.Forall₂ (fun x i => x.ArisesAt nodes[i]) places := by
  obtain ⟨blamed, herrors, hblamed⟩ := List.sublistForall₂_iff.mp h
  obtain ⟨places, rfl, hplaces⟩ := List.sublist_eq_map_getElem hblamed
  exact ⟨places, hplaces, List.forall₂_map_right_iff.mp herrors⟩

/-- The numbers that the errors carry are numbers of the nodes, in their order. -/
theorem map_node_sublist (h : Attributed errors nodes) :
    (errors.map EvalError.node).Sublist (nodes.map Expr.id) := by
  induction h with
  | nil => exact List.nil_sublist _
  | cons hx h ih =>
    rw [List.map_cons, List.map_cons, hx.node_eq]
    exact ih.cons_cons _
  | cons_right h ih => exact ih.cons _

theorem append (h : Attributed errors nodes) (h' : Attributed errors' nodes') :
    Attributed (errors ++ errors') (nodes ++ nodes') := by
  obtain ⟨blamed, herrors, hblamed⟩ := List.sublistForall₂_iff.mp h
  obtain ⟨blamed', herrors', hblamed'⟩ := List.sublistForall₂_iff.mp h'
  exact List.sublistForall₂_iff.mpr
    ⟨blamed ++ blamed', List.rel_append herrors herrors', hblamed.append hblamed'⟩

/-- Nodes in front that no error arises at. -/
theorem append_left (h : Attributed errors nodes) (more : List Expr) :
    Attributed errors (more ++ nodes) := (nil more).append h

/-- Nodes behind that no error arises at. -/
theorem append_right (h : Attributed errors nodes) (more : List Expr) :
    Attributed errors (nodes ++ more) := by
  have hmore := h.append (nil more)
  rwa [List.append_nil] at hmore

theorem singleton {x : EvalError} (h : x.ArisesAt n) : Attributed [x] [n] := .cons h .nil

/-- The error in place of a result, if there is one, arises at the node of the operation. -/
theorem settle {result : Except EvalError Binary64} (s : Store)
    (h : ∀ x, result = .error x → x.ArisesAt n) :
    Attributed (Effect.settle s result).errors [n] := by
  cases result with
  | ok value => exact nil _
  | error x => exact singleton (h x rfl)

end Attributed

namespace Expr

/-- **The errors of a tree are attributed to its nodes**, those of children before those of their
parents. -/
theorem attributed_effect (e : Expr) (s : Store) : Attributed (e.effect s).errors e.postorder := by
  induction e generalizing s with
  | literal value id => exact .nil _
  | var name id =>
    simp only [effect, Effect.read]
    cases s.lookup name with
    | ok value => exact .nil _
    | error _ => exact .singleton rfl
  | unary op operand id ih =>
    exact (ih s).append (.settle _ fun _ => EvalError.arisesAt_of_evalUnary operand)
  | binary op left right id ihl ihr =>
    rw [postorder, List.append_assoc]
    exact (ihl s).append ((ihr _).append
      (.settle _ fun _ => EvalError.arisesAt_of_evalBinary left right))
  | assign target value id iht ihv =>
    cases target with
    | var name targetId =>
      have hvalue : ∀ errors, Attributed errors value.postorder →
          Attributed errors (assign (var name targetId) value id).postorder :=
        fun _ h => (h.append_left [var name targetId]).append_right _
      simp only [effect]
      by_cases hc : s.contains name = true
      · rw [if_pos hc]
        by_cases he : (value.effect s).errors = []
        · rw [if_pos he, Effect.write_of_contains ((value.contains_effect s name).trans hc)]
          exact .nil _
        · rw [if_neg he]
          exact hvalue _ (ihv s)
      · -- The target is the first of all nodes, and the value is not evaluated.
        have ht : (EvalError.undefined name targetId).ArisesAt (var name targetId) := rfl
        rw [if_neg hc, postorder, List.append_assoc]
        exact (Attributed.singleton ht).append_right _
    | _ =>
      refine (Attributed.singleton ?_).append_left _
      refine ⟨_, value, rfl, fun hkind => ?_, rfl⟩
      cases hkind
  | print operand id ih => exact (ih s).append_right _

end Expr

/-! ## Evaluation behind the gate -/

namespace Session

variable {s : Session}

/-- **Errors are attributed to the right nodes, at most one to each and in order.** If no errors are
pending, then every error that the evaluation of a tree raises fits the node at a place of its own
among the nodes of the tree, children before parents, and a later error has a later place. The
numbers that the errors carry are numbers of the nodes in that order. -/
theorem evaluate_attributes_errors (h : s.raised = []) (e : Expr) :
    ∃ (errors : List EvalError) (places : List (Fin e.postorder.length)),
      (s.evaluate e).2.raised = errors.map Error.evaluation ∧
      places.Pairwise (· < ·) ∧
      errors.Forall₂ (fun x i => x.ArisesAt e.postorder[i]) places ∧
      (errors.map EvalError.node).Sublist (e.postorder.map Expr.id) := by
  have ha := e.attributed_effect s.store
  obtain ⟨places, hordered, hfit⟩ := ha.exists_places
  refine ⟨(e.effect s.store).errors, places, ?_, hordered, hfit, ha.map_node_sublist⟩
  rw [(evaluate_yields h e).raised, h, List.nil_append]

/-- A tree in which all nodes have one number: an assignment to a constant, and a division by zero
of an undefined variable that stands behind an operator for two operands. -/
theorem evaluate_attributes_errors_of_equal_numbers :
    let e : Expr := .binary .add (.assign (.literal (.zero false) 1) (.var "z" 1) 1)
      (.binary .div (.unary .mul (.var "y" 1) 1) (.literal (.zero false) 1) 1) 1
    let errors : List EvalError :=
      [.malformed "assignment target is a literal node, expected a variable" 1, .undefined "y" 1,
        .misplaced .mul .unary 1, .divisionByZero 1]
    (start 0).raised = [] ∧ ((start 0).evaluate e).2.raised = errors.map Error.evaluation ∧
      ∃ places : List (Fin e.postorder.length), places.Pairwise (· < ·) ∧
        errors.Forall₂ (fun x i => x.ArisesAt e.postorder[i]) places := by
  intro e errors
  have hraised : ((start 0).evaluate e).2.raised = errors.map Error.evaluation := by
    decide +kernel
  obtain ⟨found, places, hfound, hordered, hfit, -⟩ :=
    evaluate_attributes_errors (s := start 0) rfl e
  have heq : found = errors :=
    List.map_injective_iff.mpr (fun _ _ => Error.evaluation.inj) (hfound.symm.trans hraised)
  exact ⟨rfl, hraised, places, hordered, heq ▸ hfit⟩

end Session

end LineCalc
