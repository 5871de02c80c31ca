import LineCalc.Session

/-!
# What evaluation does

Evaluating a tree in a session yields a value, changes the store and adds to the errors raised. None
of these depends on the trace, or on errors that were raised before.

* `Effect` is a value, a store and the errors raised, and `Expr.effect` is the effect of a tree on a
  store. It is defined by recursion on the tree, without a session.
* `Session.Yields` says that evaluation in a session comes to an effect: the errors raised before
  stand in front of the new ones.
* `Session.eval_yields`: the evaluation of a tree comes to its effect, in every session.
* `Session.evaluate_yields` and `Session.evaluate_of_pending` are about evaluation behind the gate.
-/

namespace LineCalc

/-- What evaluation does, apart from the trace. -/
structure Effect where
  value : Binary64
  store : Store
  /-- The errors raised, oldest first. -/
  errors : List EvalError

namespace Effect

/-- The effect behind some errors. -/
def after (errors : List EvalError) (x : Effect) : Effect := { x with errors := errors ++ x.errors }

/-- The effect of a result, or of the error in its place. -/
def settle (store : Store) : Except EvalError Binary64 → Effect
  | .ok value => ⟨value, store, []⟩
  | .error e => ⟨.nan, store, [e]⟩

/-- The effect of storing a value. -/
def write (store : Store) (name : String) (value : Binary64) (node : NodeId) : Effect :=
  match store.assign name value with
  | .ok store => ⟨value, store, []⟩
  | .error _ => ⟨.nan, store, [.assignmentFailed name node]⟩

/-- The effect of reading a variable. -/
def read (store : Store) (name : String) (node : NodeId) : Effect :=
  match store.lookup name with
  | .ok value => ⟨value, store, []⟩
  | .error _ => ⟨.nan, store, [.undefined name node]⟩

end Effect

/-- The effect of evaluating a tree. -/
def Expr.effect : Expr → Store → Effect
  | .literal value _, s => ⟨value, s, []⟩
  | .var name id, s => .read s name id
  | .unary op operand id, s =>
    let x := effect operand s
    (Effect.settle x.store (op.evalUnary x.value id)).after x.errors
  | .binary op left right id, s =>
    let x := effect left s
    let y := effect right x.store
    ((Effect.settle y.store (op.evalBinary x.value y.value id)).after y.errors).after x.errors
  | .assign target value id, s =>
    match target with
    | .var name targetId =>
      if s.contains name then
        let x := effect value s
        if x.errors = [] then .write x.store name x.value id else ⟨.nan, x.store, x.errors⟩
      else ⟨.nan, s, [.undefined name targetId]⟩
    | _ => ⟨.nan, s, [.malformed (Session.badTarget target.kind) id]⟩
  | .print operand _, s => effect operand s

namespace Session

/-- The errors raised and not handed over, oldest first. -/
def raised (s : Session) : List Error := s.diagnostics.raised.toList

/-! ## What the small steps leave alone -/

theorem count_eq_length (s : Session) : s.diagnostics.count = s.raised.length := by
  simp [Diagnostics.count, raised]

@[simp] theorem store_tell (s : Session) (e : Event) : (s.tell e).store = s.store := rfl

@[simp] theorem raised_tell (s : Session) (e : Event) : (s.tell e).raised = s.raised := by
  unfold raised tell Diagnostics.tell
  split <;> rfl

@[simp] theorem store_raise (s : Session) (e : Error) : (s.raise e).store = s.store := rfl

@[simp] theorem raised_raise (s : Session) (e : Error) : (s.raise e).raised = s.raised ++ [e] := by
  unfold raised raise Diagnostics.raise Diagnostics.tell
  split <;> simp

@[simp] theorem store_reset (s : Session) : s.reset.store = s.store := rfl

@[simp] theorem raised_reset (s : Session) : s.reset.raised = [] := rfl

/-! ## Evaluation comes to the effect -/

/-- What was evaluated in the session `s` comes to the effect `x`. -/
structure Yields (s : Session) (x : Effect) (r : Binary64 × Session) : Prop where
  value : r.1 = x.value
  store : r.2.store = x.store
  raised : r.2.raised = s.raised ++ x.errors.map .evaluation

variable {s : Session} {x y : Effect} {r r' : Binary64 × Session}

theorem Yields.of_tell {e : Event} (h : Yields (s.tell e) x r) : Yields s x r :=
  ⟨h.value, h.store, by rw [h.raised, raised_tell]⟩

/-- What is evaluated in the session that an effect led to. -/
theorem Yields.andThen (hx : Yields s x r) (hy : Yields r.2 y r') :
    Yields s (y.after x.errors) r' :=
  ⟨hy.value, hy.store, by
    rw [hy.raised, hx.raised, List.append_assoc, ← List.map_append]
    rfl⟩

/-- More errors are pending than before exactly if the effect has errors. -/
theorem Yields.count_lt_iff (h : Yields s x r) :
    s.diagnostics.count < r.2.diagnostics.count ↔ x.errors ≠ [] := by
  rw [count_eq_length, count_eq_length, h.raised]
  simp [List.length_pos_iff]

theorem fail_yields (s : Session) (e : EvalError) : Yields s ⟨.nan, s.store, [e]⟩ (s.fail e) :=
  ⟨rfl, rfl, raised_raise s _⟩

theorem read_yields (s : Session) (name : String) (node : NodeId) :
    Yields s (.read s.store name node) (s.read name node) := by
  unfold read Effect.read
  cases s.store.lookup name with
  | ok value => exact ⟨rfl, rfl, (List.append_nil _).symm⟩
  | error _ => exact fail_yields s _

theorem settle_yields (s : Session) (result : Except EvalError Binary64) :
    Yields s (.settle s.store result) (s.settle result) := by
  cases result with
  | ok value => exact ⟨rfl, rfl, (List.append_nil _).symm⟩
  | error e => exact fail_yields s e

theorem write_yields (s : Session) (name : String) (value : Binary64) (node : NodeId) :
    Yields s (.write s.store name value node) (s.write name value node) := by
  unfold write Effect.write
  cases s.store.assign name value with
  | ok store => exact ⟨rfl, rfl, (List.append_nil _).symm⟩
  | error _ => exact fail_yields s _

/-- **Evaluation comes to the effect of the tree**, whatever was raised before. -/
theorem eval_yields (e : Expr) (s : Session) : Yields s (e.effect s.store) (eval e s) := by
  induction e generalizing s with
  | literal value id => exact ⟨rfl, rfl, by simp [eval, Expr.effect]⟩
  | var name id => exact (read_yields (s.tell _) name id).of_tell
  | unary op operand id ih =>
    have hx := (ih (s.tell (.visiting .unary id))).of_tell
    rw [store_tell] at hx
    have hs := hx.andThen (settle_yields _ (op.evalUnary (operand.effect s.store).value id))
    simp only [eval, Expr.effect, hx.value]
    rwa [hx.store] at hs
  | binary op left right id ihl ihr =>
    have hx := (ihl (s.tell (.visiting .binary id))).of_tell
    rw [store_tell] at hx
    have hy := ihr (eval left (s.tell (.visiting .binary id))).2
    rw [hx.store] at hy
    have hs := hx.andThen (hy.andThen (settle_yields _
      (op.evalBinary (left.effect s.store).value (right.effect (left.effect s.store).store).value
        id)))
    simp only [eval, Expr.effect, hx.value, hy.value]
    rwa [hy.store] at hs
  | assign target value id iht ihv =>
    cases target with
    | var name targetId =>
      simp only [eval, Expr.effect]
      by_cases hn : s.store.contains name = true
      · have hn' : (s.tell (.visiting .assign id)).store.contains name = true := hn
        rw [if_pos hn, if_pos hn']
        have hx := (ihv (s.tell (.visiting .assign id))).of_tell
        have hc := (ihv (s.tell (.visiting .assign id))).count_lt_iff
        rw [store_tell] at hx hc
        by_cases he : (value.effect s.store).errors = []
        · rw [if_neg (fun h => hc.mp h he), if_pos he, hx.value]
          have hw := hx.andThen (write_yields _ name (value.effect s.store).value id)
          rwa [hx.store, he] at hw
        · rw [if_pos (hc.mpr he), if_neg he]
          exact ⟨rfl, hx.store, by rw [raised_tell, hx.raised]⟩
      · have hn' : ¬ (s.tell (.visiting .assign id)).store.contains name = true := hn
        rw [if_neg hn, if_neg hn']
        exact (fail_yields (s.tell _) _).of_tell
    | _ => exact (fail_yields (s.tell _) _).of_tell
  | print operand id ih =>
    have hx := (ih (s.tell (.visiting .print id))).of_tell
    rwa [store_tell] at hx

/-! ## Evaluation behind the gate -/

theorem evaluate_yields (h : s.raised = []) (e : Expr) :
    Yields s (e.effect s.store) (s.evaluate e) := by
  have hc : s.diagnostics.count = 0 := by rw [count_eq_length, h, List.length_nil]
  rw [evaluate, if_pos hc]
  exact (eval_yields e (s.tell .traversing)).of_tell

/-- With errors pending, nothing is evaluated. -/
theorem evaluate_of_pending (h : s.raised ≠ []) (e : Expr) :
    Yields s ⟨.nan, s.store, []⟩ (s.evaluate e) := by
  have hc : s.diagnostics.count ≠ 0 := by
    rw [count_eq_length]
    exact fun h0 => h (List.length_eq_zero_iff.mp h0)
  rw [evaluate, if_neg hc]
  exact Yields.of_tell ⟨rfl, rfl, (List.append_nil _).symm⟩

end Session

end LineCalc
