import LineCalc.Proofs.Expr.Signs
import LineCalc.Proofs.Session.Statement

/-!
# The variables that a tree touches

Evaluating a tree reads no variables but those it names, and writes none but those it assigns to.
This holds for all trees, also for those that have assignments below operators, and whether or not
an assignment takes place.

* `Expr.get?_effect`: a variable that a tree does not assign to stays as it is.
* `Expr.contains_effect`: no tree declares a variable or takes a declaration away.
* `Store.ReadAlike` says that two stores cannot be told apart by reading the given names, and
  `Effect.SameOn` that two effects are the same as far as these names go.
* `Expr.sameOn_effect`: a tree has the same effect in stores that its names read alike in. The names
  are fixed for the induction, so that what one part of a tree writes is still compared when the
  next part reads it.
* `Session.evaluate_footprint` is about evaluation behind the gate.
-/

namespace LineCalc

/-! ## Writing -/

namespace Effect

variable {s : Store} {name other : String} {v : Binary64} {node : NodeId}

theorem get?_write (h : other ≠ name) : (write s name v node).store.get? other = s.get? other := by
  unfold write Store.assign
  split
  · rename_i t ht
    split at ht
    · cases ht
      rw [Store.get?_put, if_neg h.symm]
    · cases ht
  · rfl

theorem contains_write : (write s name v node).store.contains other = s.contains other := by
  by_cases hc : s.contains name = true
  · rw [write_of_contains hc]
    unfold Store.contains at hc ⊢
    rw [Store.get?_put]
    split
    · rename_i h
      rw [← h, hc]
      rfl
    · rfl
  · unfold write Store.assign
    rw [if_neg hc]

end Effect

namespace Expr

/-- **A variable that a tree does not assign to stays as it is.** -/
theorem get?_effect (e : Expr) (s : Store) {name : String} (h : name ∉ e.targets) :
    (e.effect s).store.get? name = s.get? name := by
  induction e generalizing s with
  | literal value id => rfl
  | var other id => exact congrArg (Store.get? · name) (Effect.store_read s other id)
  | unary op operand id ih =>
    rw [targets_unary] at h
    simp only [effect, Effect.store_after, Effect.store_settle]
    exact ih s h
  | binary op left right id ihl ihr =>
    rw [targets_binary, List.mem_append, not_or] at h
    simp only [effect, Effect.store_after, Effect.store_settle]
    rw [ihr _ h.2, ihl s h.1]
  | assign target value id iht ihv =>
    cases target with
    | var other targetId =>
      rw [targets_assign, List.mem_cons, not_or] at h
      simp only [effect]
      split
      · split
        · rw [Effect.get?_write h.1, ihv s h.2]
        · exact ihv s h.2
      · rfl
    | _ => rfl
  | print operand id ih =>
    rw [targets_print] at h
    exact ih s h

/-- **No tree declares a variable or takes a declaration away.** -/
theorem contains_effect (e : Expr) (s : Store) (name : String) :
    (e.effect s).store.contains name = s.contains name := by
  induction e generalizing s with
  | literal value id => rfl
  | var other id => exact congrArg (Store.contains · name) (Effect.store_read s other id)
  | unary op operand id ih =>
    simp only [effect, Effect.store_after, Effect.store_settle]
    exact ih s
  | binary op left right id ihl ihr =>
    simp only [effect, Effect.store_after, Effect.store_settle]
    rw [ihr, ihl]
  | assign target value id iht ihv =>
    cases target with
    | var other targetId =>
      simp only [effect]
      split
      · split
        · rw [Effect.contains_write, ihv s]
        · exact ihv s
      · rfl
    | _ => rfl
  | print operand id ih => exact ih s

end Expr

/-! ## Reading -/

/-- The given names are declared in both stores or in none of them, and read as the same values.
Whether a variable has been assigned makes no difference to what it reads as. -/
def Store.ReadAlike (names : List String) (s t : Store) : Prop :=
  ∀ name ∈ names, (s.get? name).map Variable.value = (t.get? name).map Variable.value

instance (names : List String) (s t : Store) : Decidable (s.ReadAlike names t) :=
  inferInstanceAs (Decidable (∀ name ∈ names, _ = _))

namespace Store.ReadAlike

variable {names : List String} {s t : Store} {name : String}

theorem contains_eq (h : ReadAlike names s t) (hn : name ∈ names) :
    s.contains name = t.contains name := by
  have hv := congrArg Option.isSome (h name hn)
  rwa [Option.isSome_map, Option.isSome_map] at hv

theorem lookup_eq (h : ReadAlike names s t) (hn : name ∈ names) :
    s.lookup name = t.lookup name := by
  have hv := h name hn
  unfold lookup
  cases hs : s.get? name <;> cases ht : t.get? name <;> simp_all

theorem put (h : ReadAlike names s t) (name : String) (v : Variable) :
    ReadAlike names (s.put name v) (t.put name v) := by
  intro other ho
  rw [get?_put, get?_put]
  split
  · rfl
  · exact h other ho

end Store.ReadAlike

/-- The effects have the same value and the same errors, and lead to stores that the given names
read alike in. -/
structure Effect.SameOn (names : List String) (x y : Effect) : Prop where
  value : x.value = y.value
  errors : x.errors = y.errors
  store : x.store.ReadAlike names y.store

namespace Effect

variable {names : List String} {s t : Store} {x y : Effect} {name : String}

theorem SameOn.after (h : SameOn names x y) (errors : List EvalError) :
    SameOn names (x.after errors) (y.after errors) :=
  ⟨h.value, congrArg (errors ++ ·) h.errors, h.store⟩

theorem sameOn_settle (h : s.ReadAlike names t) (result : Except EvalError Binary64) :
    SameOn names (settle s result) (settle t result) := by
  cases result with
  | ok value => exact ⟨rfl, rfl, h⟩
  | error e => exact ⟨rfl, rfl, h⟩

theorem sameOn_read (h : s.ReadAlike names t) (hn : name ∈ names) (node : NodeId) :
    SameOn names (read s name node) (read t name node) := by
  unfold read
  rw [h.lookup_eq hn]
  cases t.lookup name with
  | ok value => exact ⟨rfl, rfl, h⟩
  | error _ => exact ⟨rfl, rfl, h⟩

theorem sameOn_write (h : s.ReadAlike names t) (hn : name ∈ names) (v : Binary64)
    (node : NodeId) : SameOn names (write s name v node) (write t name v node) := by
  unfold write Store.assign
  rw [h.contains_eq hn]
  by_cases hc : t.contains name = true
  · rw [if_pos hc, if_pos hc]
    exact ⟨rfl, rfl, h.put name _⟩
  · rw [if_neg hc, if_neg hc]
    exact ⟨rfl, rfl, h⟩

end Effect

/-- **A tree has the same effect in stores that its names read alike in.** -/
theorem Expr.sameOn_effect {names : List String} (e : Expr) (hn : ∀ name ∈ e.names, name ∈ names)
    {s t : Store} (h : s.ReadAlike names t) : Effect.SameOn names (e.effect s) (e.effect t) := by
  induction e generalizing s t with
  | literal value id => exact ⟨rfl, rfl, h⟩
  | var name id => exact Effect.sameOn_read h (hn name List.mem_cons_self) id
  | unary op operand id ih =>
    have hx := ih hn h
    simp only [effect]
    rw [hx.value, hx.errors]
    exact (Effect.sameOn_settle hx.store _).after _
  | binary op left right id ihl ihr =>
    obtain ⟨hnl, hnr⟩ := List.forall_mem_append.mp hn
    have hx := ihl hnl h
    have hy := ihr hnr hx.store
    simp only [effect]
    rw [hx.value, hx.errors, hy.value, hy.errors]
    exact ((Effect.sameOn_settle hy.store _).after _).after _
  | assign target value id iht ihv =>
    cases target with
    | var name targetId =>
      obtain ⟨hname, hnv⟩ := List.forall_mem_cons.mp hn
      have hx := ihv hnv h
      simp only [effect]
      rw [h.contains_eq hname]
      split
      · rw [hx.value, hx.errors]
        split
        · exact Effect.sameOn_write hx.store hname _ id
        · exact ⟨rfl, rfl, hx.store⟩
      · exact ⟨rfl, rfl, h⟩
    | _ => exact ⟨rfl, rfl, h⟩
  | print operand id ih => exact ih hn h

/-! ## Evaluation behind the gate -/

namespace Session

/-- The store behind an evaluation is that of the effect, or the old one if errors are pending. -/
theorem store_evaluate (s : Session) (e : Expr) :
    (s.evaluate e).2.store = if s.raised = [] then (e.effect s.store).store else s.store := by
  split
  · rename_i hp
    exact (evaluate_yields hp e).store
  · rename_i hp
    exact (evaluate_of_pending hp e).store

/-- **Evaluation touches the variables of the tree and no others.** If no errors are pending in two
sessions whose stores the names of the tree read alike in, then the tree has the same value and
raises the same errors in both, and its names read alike afterwards. In every session, a variable
that the tree does not assign to stays as it is, and the same variables are declared afterwards. -/
theorem evaluate_footprint (e : Expr) :
    (∀ s t : Session, s.raised = [] → t.raised = [] → s.store.ReadAlike e.names t.store →
      (s.evaluate e).1 = (t.evaluate e).1 ∧ (s.evaluate e).2.raised = (t.evaluate e).2.raised ∧
        (s.evaluate e).2.store.ReadAlike e.names (t.evaluate e).2.store) ∧
    ∀ (s : Session) (name : String),
      (name ∉ e.targets → (s.evaluate e).2.store.get? name = s.store.get? name) ∧
        (s.evaluate e).2.store.contains name = s.store.contains name := by
  refine ⟨fun s t hs ht h => ?_, fun s name => ?_⟩
  · have hx := evaluate_yields hs e
    have hy := evaluate_yields ht e
    have hsame := e.sameOn_effect (fun _ hn => hn) h
    rw [hx.value, hy.value, hx.raised, hy.raised, hs, ht, hx.store, hy.store, hsame.errors]
    exact ⟨hsame.value, rfl, hsame.store⟩
  · rw [store_evaluate]
    split
    · exact ⟨e.get?_effect s.store, e.contains_effect s.store name⟩
    · exact ⟨fun _ => rfl, rfl⟩

/-- An assignment below an operator in front of a variable that reads what it wrote. One session has
the variable without a value, the other has it with the value zero, and a variable more. -/
theorem evaluate_footprint_of_unassigned :
    let e : Expr := .binary .add (.assign (.var "x" 0) (.var "y" 1) 2) (.var "x" 3) 4
    let store := Store.empty.put "y" (.assigned (.infinite true))
    let s : Session := { start 0 with store := store.put "x" .unassigned }
    let t : Session := { start 0 with
      store := (store.put "x" (.assigned (.zero false))).put "z" .unassigned }
    (s.raised = [] ∧ t.raised = [] ∧ s.store.ReadAlike e.names t.store ∧ "y" ∉ e.targets) ∧
      (s.evaluate e).1 = (t.evaluate e).1 ∧ (s.evaluate e).2.raised = (t.evaluate e).2.raised ∧
      (s.evaluate e).2.store.ReadAlike e.names (t.evaluate e).2.store ∧
      (s.evaluate e).2.store.get? "y" = s.store.get? "y" ∧
      (t.evaluate e).2.store.contains "z" = t.store.contains "z" := by
  intro e store s t
  have hread : s.store.ReadAlike e.names t.store := by decide +kernel
  have hy : "y" ∉ e.targets := by decide
  obtain ⟨hsame, hstays⟩ := evaluate_footprint e
  obtain ⟨hvalue, hraised, hafter⟩ := hsame s t rfl rfl hread
  exact ⟨⟨rfl, rfl, hread, hy⟩, hvalue, hraised, hafter, (hstays s "y").1 hy, (hstays t "z").2⟩

end Session

end LineCalc
