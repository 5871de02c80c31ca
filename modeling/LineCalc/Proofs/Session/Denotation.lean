import LineCalc.Proofs.Session.Atomicity

/-!
# The meaning of a line

The value of a line and its errors are a function of the arithmetic in it and of the values that the
variables have in front of the line. The evaluation of the line, which reads and writes a store and
raises errors on its way, comes to that function.

* `Environment` gives the variables their values. `Expr.denote` is the value of arithmetic in an
  environment, where what has no value is `nan`.
* `Expr.fault?` is the error that belongs to a node, and `Expr.faults` lists the errors of a tree,
  those of children before those of their parents.
* `Expr.Arithmetic.effect_eq`: the effect of arithmetic is its meaning in the store.
* `Expr.denote_eq_nan_of_faults`: arithmetic with a fault has no value. No fault is hidden by what
  stands above it.
* `Session.runLine_refines_denotation` is about whole lines.
-/

namespace LineCalc

/-- The values of variables. A variable without a value is not declared. -/
abbrev Environment := String → Option Binary64

/-- What the variables of a store read as. -/
def Store.environment (s : Store) : Environment := fun name => (s.get? name).map Variable.value

theorem Store.environment_apply (s : Store) (name : String) :
    s.environment name = (s.get? name).map Variable.value := rfl

/-- The environment in which the given names have the value zero, if they had none. -/
def Environment.declare (env : Environment) (names : List String) : Environment :=
  fun name => (env name).or (if name ∈ names then some (.zero false) else none)

namespace Operator

/-- The value of an operator before an operand. -/
def denoteUnary : Operator → Binary64 → Binary64
  | abs, x => x.abs
  | neg, x => -x
  | _, _ => .nan

/-- The value of an operator between two operands. A division or remainder by zero has none. -/
def denoteBinary : Operator → Binary64 → Binary64 → Binary64
  | add, x, y => x + y
  | sub, x, y => x - y
  | mul, x, y => x * y
  | div, x, y => if y.isZero then .nan else x / y
  | mod, x, y => if y.isZero then .nan else x % y
  | _, _, _ => .nan

end Operator

namespace Expr

/-- The value of arithmetic. -/
def denote (env : Environment) : Expr → Binary64
  | literal value _ => value
  | var name _ => (env name).getD .nan
  | unary op operand _ => op.denoteUnary (operand.denote env)
  | binary op left right _ => op.denoteBinary (left.denote env) (right.denote env)
  | _ => .nan

/-- The error that belongs to a node: at a variable that has no value, and at a division or
remainder by zero. -/
def fault? (env : Environment) : Expr → Option EvalError
  | var name id => if env name = none then some (.undefined name id) else none
  | binary op _ right id =>
    if op.isDivision ∧ (right.denote env).isZero then some (.divisionByZero id) else none
  | _ => none

/-- The errors of a tree, those of children before those of their parents. -/
def faults (env : Environment) (e : Expr) : List EvalError := e.postorder.filterMap (fault? env)

variable {env : Environment} {e : Expr}

theorem faults_var (name : String) (id : NodeId) :
    (var name id).faults env = if env name = none then [.undefined name id] else [] := by
  unfold faults
  by_cases hn : env name = none <;> simp [postorder, fault?, hn]

theorem faults_unary (op : Operator) (e : Expr) (id : NodeId) :
    (unary op e id).faults env = e.faults env := by
  simp [faults, postorder, List.filterMap_append, fault?]

theorem faults_binary (op : Operator) (l r : Expr) (id : NodeId) :
    (binary op l r id).faults env =
      l.faults env ++ (r.faults env ++ (fault? env (binary op l r id)).toList) := by
  unfold faults
  rw [postorder, List.filterMap_append, List.filterMap_append, List.append_assoc]
  cases h : fault? env (binary op l r id) <;> simp [h]

end Expr

namespace Operator

variable {op : Operator} {x y : Binary64}

theorem evalUnary_eq (h : op.isUnary = true) (x : Binary64) (node : NodeId) :
    op.evalUnary x node = .ok (op.denoteUnary x) := by
  cases op with
  | abs | neg => rfl
  | _ => cases h

/-- A division or remainder by zero is an error, and everything else has its value. -/
theorem evalBinary_eq (h : op.isBinary = true) (x y : Binary64) (node : NodeId) :
    op.evalBinary x y node =
      if op.isDivision = true ∧ y.isZero = true then .error (.divisionByZero node)
      else .ok (op.denoteBinary x y) := by
  cases op with
  | add | sub | mul => rfl
  | div | mod =>
    by_cases hy : y.isZero = true
    · simp [evalBinary, isDivision, hy]
    · simp [evalBinary, denoteBinary, isDivision, hy]
  | abs | neg => cases h

theorem denoteUnary_nan (op : Operator) : op.denoteUnary .nan = .nan := by
  cases op <;> rfl

theorem denoteBinary_nan_left (op : Operator) (y : Binary64) : op.denoteBinary .nan y = .nan := by
  cases op with
  | add => exact Binary64.nan_add y
  | sub => exact Binary64.nan_sub y
  | mul => exact Binary64.nan_mul y
  | div | mod => exact ite_self _
  | abs | neg => rfl

theorem denoteBinary_nan_right (op : Operator) (x : Binary64) : op.denoteBinary x .nan = .nan := by
  cases op with
  | add => exact Binary64.add_nan x
  | sub => exact Binary64.sub_nan x
  | mul => exact Binary64.mul_nan x
  | div => exact Binary64.div_nan x
  | mod => exact Binary64.mod_nan x
  | abs | neg => rfl

theorem denoteBinary_of_isZero (h : op.isDivision = true) (hy : y.isZero = true) (x : Binary64) :
    op.denoteBinary x y = .nan := by
  cases op with
  | div | mod => exact if_pos hy
  | _ => cases h

end Operator

namespace Expr

variable {e : Expr}

/-- **Arithmetic with a fault has no value**, wherever in the tree the fault is. -/
theorem denote_eq_nan_of_faults {env : Environment} (h : e.Arithmetic) (hf : e.faults env ≠ []) :
    e.denote env = .nan := by
  induction h with
  | literal value id => exact absurd rfl hf
  | var name id =>
    by_cases hn : env name = none
    · rw [denote, hn, Option.getD_none]
    · rw [faults_var, if_neg hn] at hf
      exact absurd rfl hf
  | @unary op e id hop h ih =>
    rw [faults_unary] at hf
    rw [denote, ih hf, Operator.denoteUnary_nan]
  | @binary op l r id hop hl hr ihl ihr =>
    rw [denote]
    by_cases hfl : l.faults env = []
    · by_cases hfr : r.faults env = []
      · rw [faults_binary, hfl, hfr, List.nil_append, List.nil_append] at hf
        have hz : op.isDivision = true ∧ (r.denote env).isZero = true := by
          refine Decidable.byContradiction fun hn => ?_
          rw [fault?, if_neg hn] at hf
          exact hf rfl
        exact Operator.denoteBinary_of_isZero hz.1 hz.2 _
      · rw [ihr hfr, Operator.denoteBinary_nan_right]
    · rw [ihl hfl, Operator.denoteBinary_nan_left]

/-- **The effect of arithmetic is its meaning in the store.** -/
theorem Arithmetic.effect_eq (h : e.Arithmetic) (s : Store) :
    e.effect s = ⟨e.denote s.environment, s, e.faults s.environment⟩ := by
  induction h with
  | literal value id => rfl
  | var name id =>
    rw [effect, Effect.read, Store.lookup, denote, faults_var, Store.environment_apply]
    cases s.get? name with
    | none => rfl
    | some v => rfl
  | unary id hop h ih =>
    simp only [effect]
    rw [ih, Operator.evalUnary_eq hop, faults_unary, denote]
    simp [Effect.settle, Effect.after]
  | @binary op l r id hop hl hr ihl ihr =>
    simp only [effect]
    rw [ihl, ihr, Operator.evalBinary_eq hop, faults_binary, denote]
    simp only [fault?]
    by_cases hz : op.isDivision = true ∧ (r.denote s.environment).isZero = true
    · rw [if_pos hz, if_pos hz, Operator.denoteBinary_of_isZero hz.1 hz.2]
      rfl
    · rw [if_neg hz, if_neg hz]
      rfl

end Expr

namespace Session

theorem environment_declareTargets (s : Session) (e : Expr) :
    (s.declareTargets e).store.environment = s.store.environment.declare e.targets := by
  funext name
  rw [Store.environment_apply, get?_declareTargets, Option.map_or, Environment.declare,
    Store.environment_apply]
  by_cases hn : name ∈ e.targets
  · rw [if_pos hn, if_pos hn]
    rfl
  · rw [if_neg hn, if_neg hn]
    rfl

/-- The evaluation of a statement whose targets were declared comes to the meaning of its
arithmetic. -/
theorem evaluate_declareTargets {s : Session} {e : Expr} (hs : s.raised = []) (h : e.Statement) :
    ((s.declareTargets e).evaluate e).1 =
        e.body.denote (s.store.environment.declare e.targets) ∧
      ((s.declareTargets e).evaluate e).2.raised =
        (e.body.faults (s.store.environment.declare e.targets)).map Error.evaluation := by
  have hc := contains_declareTargets s e
  have hy := evaluate_yields ((raised_declareTargets s e).trans hs) e
  have hb := h.body_arithmetic.effect_eq (s.declareTargets e).store
  rw [environment_declareTargets] at hb
  rw [hy.value, hy.raised, raised_declareTargets, hs, List.nil_append]
  by_cases hf : e.body.faults (s.store.environment.declare e.targets) = []
  · obtain ⟨hn, hv, -⟩ := h.effect_of_errors_eq_nil hc (by rw [hb]; exact hf)
    rw [hn, hv, hb, hf]
    exact ⟨rfl, rfl⟩
  · obtain ⟨hn, -, hv⟩ := h.effect_of_errors_ne_nil hc (by rw [hb]; exact hf)
    have hnan := Expr.denote_eq_nan_of_faults h.body_arithmetic hf
    rw [hn, hb]
    refine ⟨?_, rfl⟩
    rcases hv with hv | hv
    · rw [hv, hnan]
    · rw [hv, hb]

/-- **The evaluation of a line comes to its meaning.** The statement of the line is arithmetic below
assignments. With an empty channel in front of the line, its value is that of the arithmetic, where
a variable has the value that it had in front of the line and those that the line assigns to are
zero if they had none. The errors are those of the arithmetic, each raised by its own node, and
there are no others. -/
theorem runLine_refines_denotation {s : Session} {source : String} {line : Nat} {next : NodeId}
    {e : Expr} (hs : s.diagnostics.raised = #[])
    (he : (readLine source line next).outcome = .ok (some e)) :
    e.Statement ∧ ∃ answer, (s.runLine source line next).answer? = some answer ∧
      answer.value = e.body.denote (s.store.environment.declare e.targets) ∧
      answer.errors =
        (e.body.faults (s.store.environment.declare e.targets)).map Error.evaluation := by
  obtain ⟨ts, -, hd, -⟩ := derives_of_readLine he
  have h : e.Statement := hd.shape
  have hraised : s.raised = [] := by rw [raised, hs]
  obtain ⟨hv, hr⟩ := evaluate_declareTargets hraised h
  exact ⟨h, _, (runLine_of_statement he).1, hv, hr⟩

/-- An undeclared operand and a division by a variable that the line itself declares. -/
theorem runLine_refines_denotation_of_self :
    (start 0).diagnostics.raised = #[] ∧
    ∃ e, (readLine "x = (y / x)" 1 0).outcome = .ok (some e) ∧
      ∃ i j answer, ((start 0).runLine "x = (y / x)" 1 0).answer? = some answer ∧
        answer.value = .nan ∧
        answer.errors = [.evaluation (.undefined "y" i), .evaluation (.divisionByZero j)] := by
  have hshape : (Expr.assign (.var "x" 0) (.binary .div (.var "y" 0) (.var "x" 0) 0) 0).Statement :=
    .silent (.assign "x" 0 0 (.value (.binary 0 rfl (.var "y" 0) (.var "x" 0))))
  have hnames : ∀ name ∈ ["x", "y", "x"], IsName name := by
    simp only [List.forall_mem_cons]
    decide
  obtain ⟨e, he, ha⟩ := hshape.readLine_text (fun _ h => nomatch h) hnames (by decide) 1 0
  have htext : (Expr.assign (.var "x" 0)
      (.binary .div (.var "y" 0) (.var "x" 0) 0) 0).text = "x = (y / x)" := by rfl
  rw [htext] at he
  obtain ⟨u, f, n, hu, hf, rfl⟩ := Expr.Alike.of_assign ha.symm
  obtain ⟨k, rfl⟩ := hu.of_var
  obtain ⟨l, r, j, hl, hr, rfl⟩ := hf.of_binary
  obtain ⟨i, rfl⟩ := hl.of_var
  obtain ⟨m, rfl⟩ := hr.of_var
  have hd := runLine_refines_denotation (s := start 0) rfl he
  obtain ⟨-, answer, hanswer, hv, herrors⟩ := hd
  have htargets : (Expr.assign (.var "x" k)
      (.binary .div (.var "y" i) (.var "x" m) j) n).targets = ["x"] := rfl
  rw [htargets] at hv herrors
  have hy : (start 0).store.environment.declare ["x"] "y" = none := by
    simp [start, Environment.declare, Store.environment]
  have hx : (start 0).store.environment.declare ["x"] "x" = some (.zero false) := by
    simp [start, Environment.declare, Store.environment]
  generalize (start 0).store.environment.declare ["x"] = env at hv herrors hy hx
  refine ⟨rfl, _, he, i, j, answer, hanswer, ?_, ?_⟩
  · rw [hv]
    simp only [Expr.body, Expr.denote, hx, hy, Option.getD_some]
    rfl
  · rw [herrors]
    simp only [Expr.body, Expr.faults_binary, Expr.faults_var, Expr.fault?, Expr.denote, hx, hy,
      Option.getD_some]
    rfl

end Session

end LineCalc
