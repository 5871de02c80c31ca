import LineCalc.Proofs.Session.Account
import LineCalc.Proofs.Session.Footprint

/-!
# Every node is evaluated once

An error does not stop the evaluation of a tree, and no part of a tree is evaluated twice. If all
assignments are to variables, and these are declared, then the trace tells of a visit to every node
but the targets of assignments, each node before its children.

* `Expr.AssignsToVariables` is the condition on a tree, and `Expr.visited` are its nodes without the
  targets of assignments. `Expr.visited_sublist_preorder` and `Expr.perm_preorder` say which nodes
  these are, and `Expr.map_target?_visited` that they name the variables that the tree assigns to.
* `Event.isVisit` tells the messages about visits from the others by their text.
* `Expr.visits_account`: the account of a tree tells of the visits to these nodes, in their order,
  whatever errors it tells in between.
* `Session.evaluate_visits_once` is about what the trace is told by an evaluation behind the gate.
-/

namespace LineCalc

/-! ## The nodes to be visited -/

namespace Expr

/-- Every assignment in the tree is one to a variable. -/
def AssignsToVariables (e : Expr) : Prop :=
  ∀ n ∈ e.preorder, n.isAssign = true → n.target?.isSome = true

instance (e : Expr) : Decidable e.AssignsToVariables :=
  inferInstanceAs (Decidable (∀ n ∈ e.preorder, _ → _))

/-- The nodes that do not belong to the target of an assignment, each before its children. -/
def visited : Expr → List Expr
  | e@(literal _ _) => [e]
  | e@(var _ _) => [e]
  | e@(unary _ operand _) => e :: operand.visited
  | e@(binary _ left right _) => e :: left.visited ++ right.visited
  | e@(assign _ value _) => e :: value.visited
  | e@(print operand _) => e :: operand.visited

/-- The target of the root, if the root is an assignment. -/
def targetNode? : Expr → Option Expr
  | assign target _ _ => some target
  | _ => none

variable {e : Expr}

/-- An assignment to a variable is all that the condition on trees leaves of assignments. -/
theorem AssignsToVariables.exists_of_assign {target value : Expr} {id : NodeId}
    (h : (assign target value id).AssignsToVariables) :
    (∃ name i, target = var name i) ∧ value.AssignsToVariables := by
  refine ⟨?_, fun n hn => h n (List.mem_append_right _ hn)⟩
  have hroot := h _ List.mem_cons_self rfl
  cases target with
  | var name i => exact ⟨name, i, rfl⟩
  | _ => cases hroot

theorem AssignsToVariables.of_unary {op : Operator} {id : NodeId}
    (h : (unary op e id).AssignsToVariables) : e.AssignsToVariables :=
  fun n hn => h n (List.mem_cons_of_mem _ hn)

theorem AssignsToVariables.of_binary {op : Operator} {left right : Expr} {id : NodeId}
    (h : (binary op left right id).AssignsToVariables) :
    left.AssignsToVariables ∧ right.AssignsToVariables :=
  ⟨fun n hn => h n (List.mem_append_left _ (List.mem_cons_of_mem _ hn)),
    fun n hn => h n (List.mem_append_right _ hn)⟩

theorem AssignsToVariables.of_print {id : NodeId} (h : (print e id).AssignsToVariables) :
    e.AssignsToVariables :=
  fun n hn => h n (List.mem_cons_of_mem _ hn)

/-- The nodes to be visited are nodes of the tree in the order of the tree. -/
theorem visited_sublist_preorder (e : Expr) : e.visited.Sublist e.preorder := by
  induction e with
  | literal value id => exact List.Sublist.refl _
  | var name id => exact List.Sublist.refl _
  | unary op operand id ih => exact ih.cons_cons _
  | binary op left right id ihl ihr => exact (ihl.cons_cons _).append ihr
  | assign target value id iht ihv =>
    exact (ihv.trans (List.sublist_append_right _ _)).cons_cons _
  | print operand id ih => exact ih.cons_cons _

/-- What the nodes to be visited leave of a tree are the targets of its assignments. -/
theorem perm_preorder (h : e.AssignsToVariables) :
    e.preorder.Perm (e.visited ++ e.preorder.filterMap targetNode?) := by
  induction e with
  | literal value id => exact .refl _
  | var name id => exact .refl _
  | unary op operand id ih => exact (ih h.of_unary).cons _
  | binary op left right id ihl ihr =>
    have hl := ihl h.of_binary.1
    have hr := ihr h.of_binary.2
    have hroot : targetNode? (binary op left right id) = none := rfl
    simp only [preorder, visited, List.cons_append, List.filterMap_cons_none hroot,
      List.filterMap_append]
    refine List.Perm.cons _ ((hl.append hr).trans ?_)
    simp only [List.append_assoc]
    exact List.Perm.append_left _ (List.perm_append_comm_assoc _ _ _)
  | assign target value id iht ihv =>
    obtain ⟨⟨name, i, rfl⟩, hv⟩ := h.exists_of_assign
    simp only [preorder, visited, List.cons_append, List.nil_append, List.filterMap_cons,
      targetNode?]
    exact List.Perm.cons _ (((ihv hv).cons _).trans List.perm_middle.symm)
  | print operand id ih => exact (ih h.of_print).cons _

/-- The assignments among the nodes to be visited are to the variables that the tree assigns to. -/
theorem map_target?_visited (h : e.AssignsToVariables) :
    (e.visited.filter isAssign).map target? = e.targets.map some := by
  induction e with
  | literal value id => rfl
  | var name id => rfl
  | unary op operand id ih =>
    rw [targets_unary, ← ih h.of_unary]
    rfl
  | binary op left right id ihl ihr =>
    rw [targets_binary, List.map_append, ← ihl h.of_binary.1, ← ihr h.of_binary.2,
      ← List.map_append, ← List.filter_append]
    rfl
  | assign target value id iht ihv =>
    obtain ⟨⟨name, i, rfl⟩, hv⟩ := h.exists_of_assign
    rw [targets_assign, List.map_cons, ← ihv hv]
    rfl
  | print operand id ih =>
    rw [targets_print, ← ih h.of_print]
    rfl

end Expr

/-! ## Messages about visits -/

theorem head?_toList_append {a b : String} {c : Char} (h : a.toList.head? = some c) :
    (a ++ b).toList.head? = some c := by
  rw [String.toList_append, List.head?_append, h]
  rfl

namespace Event

/-- Whether the message of an event starts like one about a visit to a node. -/
def isVisit (e : Event) : Bool := "Visit ".toList.isPrefixOf e.message.toList

@[simp] theorem isVisit_visiting (kind : NodeKind) (node : NodeId) :
    (visiting kind node).isVisit = true := by
  have hm : (visiting kind node).message =
      "Visit " ++ kind.name ++ " node #" ++ toString node := rfl
  rw [isVisit, hm, String.toList_append, String.toList_append, String.toList_append,
    List.append_assoc, List.append_assoc, List.isPrefixOf_iff_prefix]
  exact List.prefix_append _ _

theorem isVisit_eq_false {e : Event} {c : Char} (h : e.message.toList.head? = some c)
    (hc : c ≠ 'V') : e.isVisit = false := by
  rw [← Bool.not_eq_true, isVisit, List.isPrefixOf_iff_prefix]
  rintro ⟨more, heq⟩
  have hv : "Visit ".toList.head? = some 'V' := by decide
  rw [← heq, List.head?_append, hv] at h
  exact hc (Option.some.inj h).symm

/-- No error starts like a visit. -/
@[simp] theorem isVisit_raised (x : EvalError) : (raised (.evaluation x)).isVisit = false := by
  have hstart : ∃ c, x.message.toList.head? = some c ∧ c ≠ 'V' := by
    cases x with
    | undefined name node =>
      exact ⟨'S', head?_toList_append (head?_toList_append (by decide)), by decide⟩
    | malformed details node =>
      refine ⟨'I', ?_, by decide⟩
      iterate 4 refine head?_toList_append ?_
      decide
    | misplaced op kind node =>
      refine ⟨'I', ?_, by decide⟩
      iterate 6 refine head?_toList_append ?_
      decide
    | divisionByZero node =>
      have hd : "Division by zero.".toList.head? = some 'D' := by decide
      exact ⟨'D', hd, by decide⟩
    | assignmentFailed name node =>
      exact ⟨'A', head?_toList_append (head?_toList_append (by decide)), by decide⟩
  obtain ⟨c, hc, hne⟩ := hstart
  exact isVisit_eq_false hc hne

@[simp] theorem isVisit_keeping (name : String) : (keeping name).isVisit = false :=
  isVisit_eq_false (c := 'L') (head?_toList_append (head?_toList_append (by decide))) (by decide)

@[simp] theorem isVisit_traversing : traversing.isVisit = false := by decide

/-- Whatever errors an effect has, none of them is told as a visit. -/
theorem filter_isVisit_told (x : Effect) : x.told.filter isVisit = [] := by
  rw [List.filter_eq_nil_iff]
  intro e he
  obtain ⟨error, -, rfl⟩ := List.mem_map.mp he
  simp

end Event

/-! ## Visits in an account -/

namespace Expr

/-- The event that tells of the visit to a node. -/
def visit (n : Expr) : Event := .visiting n.kind n.id

theorem filter_isVisit_visit_cons (n : Expr) (events : List Event) :
    (n.visit :: events).filter Event.isVisit = n.visit :: events.filter Event.isVisit :=
  List.filter_cons_of_pos (Event.isVisit_visiting n.kind n.id)

/-- **The account of a tree tells of one visit to each node** but the targets of assignments, in the
order of the nodes. Every assignment finds its variable declared, also behind other assignments. -/
theorem visits_account {e : Expr} (h : e.AssignsToVariables) {s : Store}
    (hs : ∀ name ∈ e.targets, s.contains name = true) :
    (e.account s).filter Event.isVisit = e.visited.map visit := by
  induction e generalizing s with
  | literal value id => exact filter_isVisit_visit_cons (literal value id) []
  | var name id =>
    refine (filter_isVisit_visit_cons (var name id) _).trans ?_
    rw [Event.filter_isVisit_told]
    rfl
  | unary op operand id ih =>
    rw [targets_unary] at hs
    refine (filter_isVisit_visit_cons (unary op operand id) _).trans ?_
    rw [List.filter_append, Event.filter_isVisit_told, List.append_nil, ih h.of_unary hs]
    rfl
  | binary op left right id ihl ihr =>
    rw [targets_binary, List.forall_mem_append] at hs
    -- Whatever the left operand assigned to, no declaration is gone when the right one starts.
    have hr : ∀ name ∈ right.targets, (left.effect s).store.contains name = true := by
      intro name hn
      rw [contains_effect]
      exact hs.2 name hn
    refine (filter_isVisit_visit_cons (binary op left right id) _).trans ?_
    rw [List.filter_append, List.filter_append, Event.filter_isVisit_told, List.append_nil,
      ihl h.of_binary.1 hs.1, ihr h.of_binary.2 hr, ← List.map_append]
    rfl
  | assign target value id iht ihv =>
    obtain ⟨⟨name, i, rfl⟩, hv⟩ := h.exists_of_assign
    rw [targets_assign, List.forall_mem_cons] at hs
    refine (filter_isVisit_visit_cons (assign (var name i) value id) _).trans ?_
    dsimp only
    rw [if_pos hs.1, List.filter_append, ihv hv hs.2]
    -- Whether the value is stored or not, it has been evaluated.
    split
    · rw [Event.filter_isVisit_told, List.append_nil]
      rfl
    · rw [List.filter_cons_of_neg (by simp), List.filter_nil, List.append_nil]
      rfl
  | print operand id ih =>
    rw [targets_print] at hs
    refine (filter_isVisit_visit_cons (print operand id) _).trans ?_
    rw [ih h.of_print hs]
    rfl

end Expr

/-- From verbosity 2 on, all events of runs are told. -/
theorem Event.OfRun.toldAt_of_two_le {e : Event} (h : e.OfRun) {verbosity : Nat}
    (hv : 2 ≤ verbosity) : e.toldAt verbosity = true := by
  have hv' : 1 ≤ verbosity := Nat.le_of_succ_le hv
  rw [h.toldAt_eq]
  cases e.severity with
  | error | info => rfl
  | debug => exact decide_eq_true hv'
  | trace => exact decide_eq_true hv

namespace Session

variable {s : Session} {e : Expr}

/-- From verbosity 2 on, an evaluation tells the whole account of the tree. -/
theorem trace_evaluate (h : s.raised = []) (hv : 2 ≤ s.verbosity) (e : Expr) :
    (s.evaluate e).2.trace = s.trace ++ .traversing :: e.account s.store := by
  rw [(evaluate_tells h e).trace, List.filter_eq_self.mpr]
  refine List.forall_mem_cons.mpr ⟨?_, fun x hx => ?_⟩
  · have ht : Event.traversing.OfRun := trivial
    exact ht.toldAt_of_two_le hv
  · exact (Expr.ofRun_of_mem_account x hx).toldAt_of_two_le hv

/-- **Every node is evaluated exactly once, errors or not.** If all assignments of a tree are to
variables and no errors are pending, then at verbosity 2 or more the evaluation behind the
declarations tells of one visit to each node of the tree but the targets of assignments, in the
order of the tree, whatever errors it raises. The assignments among these nodes are to the variables
that the tree assigns to, in that order. -/
theorem evaluate_visits_once (ha : e.AssignsToVariables) (h : s.raised = [])
    (hv : 2 ≤ s.verbosity) :
    (∃ events, ((s.declareTargets e).evaluate e).2.trace = (s.declareTargets e).trace ++ events ∧
      (events.filter Event.isVisit).map Event.message =
        e.visited.map fun n => "Visit " ++ n.kind.name ++ " node #" ++ toString n.id) ∧
    e.visited.Sublist e.preorder ∧
    e.preorder.Perm (e.visited ++ e.preorder.filterMap Expr.targetNode?) ∧
    (e.visited.filter Expr.isAssign).map Expr.target? = e.targets.map some := by
  refine ⟨⟨_, trace_evaluate ((raised_declareTargets s e).trans h) ?_ e, ?_⟩,
    e.visited_sublist_preorder, Expr.perm_preorder ha, Expr.map_target?_visited ha⟩
  · have hd : (s.declareTargets e).verbosity = s.verbosity :=
      (foldl_declareTarget_tells e.targets s).verbosity
    rw [hd]
    exact hv
  · rw [List.filter_cons_of_neg (by simp), Expr.visits_account ha (contains_declareTargets s e),
      List.map_map]
    rfl

/-- A product of two assignments: the value of the first one reads a variable that is not declared,
and the value of the second one divides by what the first one failed to assign. -/
theorem evaluate_visits_once_of_two_failures :
    let e : Expr := .binary .mul (.assign (.var "x" 0) (.var "y" 1) 2)
      (.assign (.var "z" 3) (.binary .div (.literal (.zero false) 4) (.var "x" 5) 6) 7) 8
    let s := start 2
    (e.AssignsToVariables ∧ s.raised = [] ∧ 2 ≤ s.verbosity ∧
        ((s.declareTargets e).evaluate e).2.raised =
          [.evaluation (.undefined "y" 1), .evaluation (.divisionByZero 6)]) ∧
      (∃ events, ((s.declareTargets e).evaluate e).2.trace = (s.declareTargets e).trace ++ events ∧
        (events.filter Event.isVisit).map Event.message =
          ["Visit binary node #8", "Visit assign node #2", "Visit variable node #1",
            "Visit assign node #7", "Visit binary node #6", "Visit literal node #4",
            "Visit variable node #5"]) ∧
      (e.visited.filter Expr.isAssign).map Expr.target? = [some "x", some "z"] := by
  intro e s
  have ha : e.AssignsToVariables := by decide
  obtain ⟨⟨events, htrace, hvisits⟩, -, -, htargets⟩ :=
    evaluate_visits_once (s := s) ha rfl (Nat.le_refl 2)
  refine ⟨⟨ha, rfl, Nat.le_refl 2, by decide +kernel⟩, ⟨events, htrace, hvisits.trans ?_⟩, htargets⟩
  decide +kernel

end Session

end LineCalc
