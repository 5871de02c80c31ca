import LineCalc.Proofs.Expr.Shape
import LineCalc.Proofs.Session.Effect

/-!
# What a statement does

A statement is arithmetic below assignments. The arithmetic leaves the store alone, and every
assignment above it stores the same value, unless the arithmetic raised an error: then none does.

* `Expr.Arithmetic.store_effect`: arithmetic leaves the store alone.
* `Expr.Statement.effect_of_errors_eq_nil` and `Expr.Statement.effect_of_errors_ne_nil`: the two
  effects that a statement can have when its variables are declared, whatever the number of its
  assignments, repeated names included.
* `Session.get?_declareTargets`: what the declarations in front of the evaluation do to the store.
-/

namespace LineCalc

namespace Effect

@[simp] theorem store_settle (s : Store) (r : Except EvalError Binary64) :
    (settle s r).store = s := by
  cases r <;> rfl

@[simp] theorem store_after (errors : List EvalError) (x : Effect) :
    (x.after errors).store = x.store := rfl

@[simp] theorem store_read (s : Store) (name : String) (node : NodeId) :
    (read s name node).store = s := by
  unfold read
  split <;> rfl

theorem write_of_contains {s : Store} {name : String} (h : s.contains name = true) (v : Binary64)
    (node : NodeId) : write s name v node = ⟨v, s.put name (.assigned v), []⟩ := by
  unfold write Store.assign
  rw [if_pos h]

end Effect

theorem Store.contains_eq_true_iff {s : Store} {name : String} :
    s.contains name = true ↔ ∃ v, s.get? name = some v := Option.isSome_iff_exists

namespace Expr

variable {e : Expr} {s : Store}

/-- Arithmetic leaves the store alone. -/
theorem Arithmetic.store_effect (h : e.Arithmetic) (s : Store) : (e.effect s).store = s := by
  induction h generalizing s with
  | literal value id => rfl
  | var name id => exact Effect.store_read s name id
  | unary id hop h ih => simp [effect, ih]
  | binary id hop hl hr ihl ihr => simp [effect, ihl, ihr]

theorem effect_assign_of_contains {name : String} (h : s.contains name = true)
    (target id : NodeId) (e : Expr) :
    (assign (var name target) e id).effect s =
      if (e.effect s).errors = [] then .write (e.effect s).store name (e.effect s).value id
      else ⟨.nan, (e.effect s).store, (e.effect s).errors⟩ := by
  simp only [effect]
  rw [if_pos h]

/-- If the arithmetic raised no error, then every name that is assigned to gets its value. -/
theorem Assignment.effect_of_errors_eq_nil (h : e.Assignment)
    (hs : ∀ name ∈ e.targets, s.contains name = true) (he : (e.body.effect s).errors = []) :
    (e.effect s).errors = [] ∧ (e.effect s).value = (e.body.effect s).value ∧
      ∀ name, (e.effect s).store.get? name =
        if name ∈ e.targets then some (.assigned (e.body.effect s).value) else s.get? name := by
  induction h with
  | value h =>
    rw [h.body_eq] at he ⊢
    rw [h.targets_eq_nil, h.store_effect]
    exact ⟨he, rfl, fun name => rfl⟩
  | @assign e target i j h ih =>
    rw [targets_assign] at hs ⊢
    obtain ⟨hn, hv, hg⟩ := ih (fun name hm => hs name (List.mem_cons_of_mem _ hm)) he
    have ht := hs target List.mem_cons_self
    -- The inner assignments do not take the declaration away.
    have ht' : (e.effect s).store.contains target = true := by
      obtain ⟨v, hv⟩ := Store.contains_eq_true_iff.mp ht
      rw [Store.contains_eq_true_iff, hg target]
      split
      · exact ⟨_, rfl⟩
      · exact ⟨v, hv⟩
    rw [effect_assign_of_contains ht, if_pos hn, Effect.write_of_contains ht']
    refine ⟨rfl, hv, fun name => ?_⟩
    rw [Store.get?_put, hg name, hv]
    by_cases hname : target = name
    · rw [if_pos hname, if_pos (List.mem_cons.mpr (Or.inl hname.symm))]
      rfl
    · rw [if_neg hname]
      have hiff : name ∈ target :: e.targets ↔ name ∈ e.targets := by
        simp [List.mem_cons, Ne.symm hname]
      simp only [hiff]
      rfl

/-- If the arithmetic raised an error, then nothing is stored. -/
theorem Assignment.effect_of_errors_ne_nil (h : e.Assignment)
    (hs : ∀ name ∈ e.targets, s.contains name = true) (he : (e.body.effect s).errors ≠ []) :
    (e.effect s).errors = (e.body.effect s).errors ∧ (e.effect s).store = s ∧
      ((e.effect s).value = .nan ∨ (e.effect s).value = (e.body.effect s).value) := by
  induction h with
  | value h =>
    rw [h.body_eq]
    exact ⟨rfl, h.store_effect s, Or.inr rfl⟩
  | @assign e target i j h ih =>
    have he' : (e.body.effect s).errors ≠ [] := he
    rw [targets_assign] at hs
    obtain ⟨hn, hst, -⟩ := ih (fun name hm => hs name (List.mem_cons_of_mem _ hm)) he
    rw [effect_assign_of_contains (hs target List.mem_cons_self), hn, if_neg he']
    exact ⟨rfl, hst, Or.inl rfl⟩

theorem Statement.effect_of_errors_eq_nil (h : e.Statement)
    (hs : ∀ name ∈ e.targets, s.contains name = true) (he : (e.body.effect s).errors = []) :
    (e.effect s).errors = [] ∧ (e.effect s).value = (e.body.effect s).value ∧
      ∀ name, (e.effect s).store.get? name =
        if name ∈ e.targets then some (.assigned (e.body.effect s).value) else s.get? name := by
  cases h with
  | silent h => exact h.effect_of_errors_eq_nil hs he
  | print id h =>
    rw [targets_print] at hs ⊢
    exact h.effect_of_errors_eq_nil hs he

theorem Statement.effect_of_errors_ne_nil (h : e.Statement)
    (hs : ∀ name ∈ e.targets, s.contains name = true) (he : (e.body.effect s).errors ≠ []) :
    (e.effect s).errors = (e.body.effect s).errors ∧ (e.effect s).store = s ∧
      ((e.effect s).value = .nan ∨ (e.effect s).value = (e.body.effect s).value) := by
  cases h with
  | silent h => exact h.effect_of_errors_ne_nil hs he
  | print id h =>
    rw [targets_print] at hs
    exact h.effect_of_errors_ne_nil hs he

end Expr

namespace Session

/-! ## Declarations -/

theorem get?_declareTarget (s : Session) (target name : String) :
    (s.declareTarget target).store.get? name =
      (s.store.get? name).or (if name = target then some .unassigned else none) := by
  unfold declareTarget Store.declare
  by_cases hc : s.store.contains target = true
  · obtain ⟨v, hv⟩ := Store.contains_eq_true_iff.mp hc
    rw [if_pos hc]
    by_cases hn : name = target
    · simp [hn, hv]
    · simp [hn]
  · have hv : s.store.get? target = none := by simpa [Store.contains] using hc
    rw [if_neg hc]
    simp only [store_tell]
    rw [Store.get?_put]
    by_cases hn : name = target
    · simp [hn, hv]
    · simp [hn, Ne.symm hn]

theorem raised_declareTarget (s : Session) (target : String) :
    (s.declareTarget target).raised = s.raised := by
  unfold declareTarget
  split
  · exact raised_tell _ _
  · rfl

theorem get?_foldl_declareTarget (targets : List String) (s : Session) (name : String) :
    (targets.foldl declareTarget s).store.get? name =
      (s.store.get? name).or (if name ∈ targets then some .unassigned else none) := by
  induction targets generalizing s with
  | nil => simp
  | cons target targets ih =>
    rw [List.foldl_cons, ih, get?_declareTarget]
    by_cases hn : name = target
    · cases s.store.get? name <;> simp [hn]
    · simp [hn]

/-- Declaring the targets of a tree adds those that were not declared, and nothing else. -/
theorem get?_declareTargets (s : Session) (e : Expr) (name : String) :
    (s.declareTargets e).store.get? name =
      (s.store.get? name).or (if name ∈ e.targets then some .unassigned else none) :=
  get?_foldl_declareTarget e.targets s name

theorem contains_declareTargets (s : Session) (e : Expr) :
    ∀ name ∈ e.targets, (s.declareTargets e).store.contains name = true := by
  intro name hn
  rw [Store.contains_eq_true_iff, get?_declareTargets, if_pos hn]
  cases s.store.get? name with
  | none => exact ⟨_, rfl⟩
  | some v => exact ⟨v, rfl⟩

@[simp] theorem raised_declareTargets (s : Session) (e : Expr) :
    (s.declareTargets e).raised = s.raised := by
  unfold declareTargets
  generalize e.targets = targets
  induction targets generalizing s with
  | nil => rfl
  | cons target targets ih => rw [List.foldl_cons, ih, raised_declareTarget]

end Session

end LineCalc
