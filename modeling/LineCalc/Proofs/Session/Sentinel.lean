import LineCalc.Proofs.Session.Denotation
import LineCalc.Proofs.Session.Run

/-!
# Values that are not numbers

A variable that is not declared and a zero as divisor are errors, and the line that meets one has
the value `nan`. These are not the only ways to that value: an operation on infinities may have no
result either, and that is no error.

* `Operator.isInvalid` says which operations on numbers have no result and raise no error. One of
  the operands is infinite.
* `Expr.Arithmetic.denote_eq_nan_iff`: arithmetic without faults over numbers has no value exactly
  if one of its nodes is such an operation. What stands above that node does not bring a number
  back.
* `Session.Numeric` is the invariant of a run: no variable holds `nan`, and no error is pending.
* `Session.throughout_reportsNan_iff` is about runs of lines from a session without variables.
-/

namespace LineCalc

namespace Operator

/-- The operations on numbers that have no result although no operand is at fault. -/
def isInvalid : Operator → Binary64 → Binary64 → Bool
  | add, .infinite s, .infinite t => s != t
  | sub, .infinite s, .infinite t => s == t
  | mul, .infinite _, y => y.isZero
  | mul, x, .infinite _ => x.isZero
  | div, .infinite _, .infinite _ => true
  | mod, .infinite _, y => !y.isZero && !y.isNaN
  | _, _, _ => false

variable {op : Operator} {x y : Binary64}

/-- Only overflow leads to an operation without a result. -/
theorem infinite_of_isInvalid (h : op.isInvalid x y = true) :
    (∃ s, x = .infinite s) ∨ ∃ s, y = .infinite s := by
  cases x with
  | infinite s => exact Or.inl ⟨s, rfl⟩
  | nan | finite _ _ =>
    cases y with
    | infinite s => exact Or.inr ⟨s, rfl⟩
    | nan | finite _ _ => cases op <;> cases h

theorem isInvalid_sub (x y : Binary64) : sub.isInvalid x y = add.isInvalid x (-y) := by
  cases x with
  | infinite s =>
    cases y with
    | infinite t => cases s <;> cases t <;> rfl
    | nan | finite _ _ => rfl
  | nan | finite _ _ => cases y <;> rfl

end Operator

namespace Binary64

variable {x y : Binary64}

theorem ofRatio_ne_nan (negative : Bool) (num den : Nat) : ofRatio negative num den ≠ nan := by
  unfold ofRatio
  cases Magnitude.nearest num den with
  | none => exact fun h => nomatch h
  | some m => exact fun h => nomatch h

theorem neg_eq_nan_iff : -x = nan ↔ x = nan := by
  cases x <;> simp [Neg.neg, neg]

theorem abs_eq_nan_iff : x.abs = nan ↔ x = nan := by
  cases x <;> simp [abs]

/-! ## Operations on numbers -/

theorem add_eq_nan_iff (hx : x ≠ nan) (hy : y ≠ nan) :
    x + y = nan ↔ Operator.add.isInvalid x y = true := by
  simp only [HAdd.hAdd, Add.add]
  fun_cases add x y <;> simp_all [Operator.isInvalid, zero, ofRatio_ne_nan]

theorem sub_eq_nan_iff (hx : x ≠ nan) (hy : y ≠ nan) :
    x - y = nan ↔ Operator.sub.isInvalid x y = true := by
  have hsub : x - y = x + -y := rfl
  rw [hsub, Operator.isInvalid_sub]
  exact add_eq_nan_iff hx (mt neg_eq_nan_iff.mp hy)

theorem mul_eq_nan_iff (hx : x ≠ nan) (hy : y ≠ nan) :
    x * y = nan ↔ Operator.mul.isInvalid x y = true := by
  simp only [HMul.hMul, Mul.mul]
  fun_cases mul x y <;> simp_all [Operator.isInvalid, ofRatio_ne_nan, isZero]

theorem div_eq_nan_iff (hx : x ≠ nan) (hy : y ≠ nan) (hz : ¬ y.isZero = true) :
    x / y = nan ↔ Operator.div.isInvalid x y = true := by
  simp only [HDiv.hDiv, Div.div]
  fun_cases div x y <;> simp_all [Operator.isInvalid, ofRatio_ne_nan, isZero, zero]

theorem mod_eq_nan_iff (hx : x ≠ nan) (hy : y ≠ nan) (hz : ¬ y.isZero = true) :
    x % y = nan ↔ Operator.mod.isInvalid x y = true := by
  simp only [HMod.hMod, Mod.mod]
  fun_cases mod x y <;> simp_all [Operator.isInvalid, ofRatio_ne_nan, isZero, isNaN]

end Binary64

namespace Operator

variable {op : Operator} {x y : Binary64}

theorem denoteUnary_eq_nan_iff (h : op.isUnary = true) : op.denoteUnary x = .nan ↔ x = .nan := by
  cases op with
  | abs => exact Binary64.abs_eq_nan_iff
  | neg => exact Binary64.neg_eq_nan_iff
  | _ => cases h

/-- An operator between two numbers that raises no error has a result unless it is invalid. -/
theorem denoteBinary_eq_nan_iff (h : op.isBinary = true) (hx : x ≠ .nan) (hy : y ≠ .nan)
    (hz : ¬ (op.isDivision = true ∧ y.isZero = true)) :
    op.denoteBinary x y = .nan ↔ op.isInvalid x y = true := by
  cases op with
  | add => exact Binary64.add_eq_nan_iff hx hy
  | sub => exact Binary64.sub_eq_nan_iff hx hy
  | mul => exact Binary64.mul_eq_nan_iff hx hy
  | div =>
    have hz' : ¬ y.isZero = true := fun hy => hz ⟨rfl, hy⟩
    rw [denoteBinary, if_neg hz']
    exact Binary64.div_eq_nan_iff hx hy hz'
  | mod =>
    have hz' : ¬ y.isZero = true := fun hy => hz ⟨rfl, hy⟩
    rw [denoteBinary, if_neg hz']
    exact Binary64.mod_eq_nan_iff hx hy hz'
  | abs | neg => cases h

end Operator

/-! ## Arithmetic -/

/-- Every variable that has a value is a number. -/
def Environment.Numeric (env : Environment) : Prop := ∀ name, env name ≠ some .nan

theorem Environment.Numeric.declare {env : Environment} (h : env.Numeric) (names : List String) :
    (env.declare names).Numeric := by
  intro name
  unfold Environment.declare
  cases hv : env name with
  | some v =>
    rw [Option.some_or]
    exact hv ▸ h name
  | none =>
    rw [Option.none_or]
    split
    · exact fun hn => nomatch hn
    · exact fun hn => nomatch hn

namespace Expr

/-- Whether a node is an operation on numbers that has no result and raises no error. -/
def isInvalid (env : Environment) : Expr → Bool
  | binary op left right _ => op.isInvalid (left.denote env) (right.denote env)
  | _ => false

variable {env : Environment} {e : Expr}

/-- **Arithmetic without faults over numbers has no value exactly if an operation in it is
invalid**, wherever that stands in the tree. -/
theorem Arithmetic.denote_eq_nan_iff (h : e.Arithmetic) (henv : env.Numeric)
    (hv : ∀ v ∈ e.literals, v ≠ .nan) (hf : e.faults env = []) :
    e.denote env = .nan ↔ ∃ node ∈ e.postorder, node.isInvalid env = true := by
  induction h with
  | literal value id =>
    have hvalue := hv value List.mem_cons_self
    simpa [denote, postorder, isInvalid] using hvalue
  | var name id =>
    rw [faults_var] at hf
    cases hn : env name with
    | none =>
      rw [if_pos hn] at hf
      cases hf
    | some v =>
      have hvalue : v ≠ .nan := fun hnan => henv name (hnan ▸ hn)
      simpa [denote, hn, postorder, isInvalid] using hvalue
  | @unary op e id hop h ih =>
    rw [faults_unary] at hf
    rw [denote, Operator.denoteUnary_eq_nan_iff hop, ih hv hf]
    simp [postorder, isInvalid]
  | @binary op l r id hop hl hr ihl ihr =>
    rw [faults_binary, List.append_eq_nil_iff, List.append_eq_nil_iff] at hf
    obtain ⟨hfl, hfr, hfault⟩ := hf
    simp only [literals, List.forall_mem_append] at hv
    have ihl := ihl hv.1 hfl
    have ihr := ihr hv.2 hfr
    have hsplit : (∃ node ∈ (Expr.binary op l r id).postorder, node.isInvalid env = true) ↔
        (∃ node ∈ l.postorder, node.isInvalid env = true) ∨
          (∃ node ∈ r.postorder, node.isInvalid env = true) ∨
            op.isInvalid (l.denote env) (r.denote env) = true := by
      simp only [postorder, List.mem_append, List.mem_singleton, or_and_right, exists_or,
        exists_eq_left, or_assoc]
      rfl
    rw [hsplit, ← ihl, ← ihr, denote]
    by_cases hnl : l.denote env = .nan
    · simp [hnl, Operator.denoteBinary_nan_left]
    · by_cases hnr : r.denote env = .nan
      · simp [hnr, Operator.denoteBinary_nan_right]
      · have hz : ¬ (op.isDivision = true ∧ (r.denote env).isZero = true) := by
          intro hz
          rw [fault?, if_pos hz] at hfault
          cases hfault
        rw [Operator.denoteBinary_eq_nan_iff hop hnl hnr hz]
        simp [hnl, hnr]

theorem mem_literals_of_mem_body {v : Binary64} (h : v ∈ e.body.literals) : v ∈ e.literals := by
  induction e with
  | assign target value id iht ihv => exact List.mem_append_right _ (ihv h)
  | print operand id ih => exact ih h
  | _ => exact h

end Expr

namespace Session

/-! ## Lines -/

/-- No variable holds `nan`, and no error is pending. -/
structure Numeric (s : Session) : Prop where
  raised : s.raised = []
  store : s.store.environment.Numeric

/-- If the line has the value `nan`, then it has an error. -/
def ReportsNan : LineProperty := fun s source line next =>
  ∀ answer, (s.runLine source line next).answer? = some answer → answer.value = .nan →
    answer.errors ≠ []

/-- If the line has no error, then no operation in it is invalid. -/
def HasResults : LineProperty := fun s source line next =>
  ∀ e, (readLine source line next).outcome = .ok (some e) →
    e.body.faults (s.store.environment.declare e.targets) = [] →
    ∀ node ∈ e.body.postorder, node.isInvalid (s.store.environment.declare e.targets) = false

variable {s : Session} {source : String} {line : Nat} {next : NodeId}

theorem numeric_start (verbosity : Nat) : (start verbosity).Numeric where
  raised := rfl
  store := by
    intro name
    simp [start, Store.environment]

theorem reportsNan_iff (hs : s.Numeric) :
    s.ReportsNan source line next ↔ s.HasResults source line next := by
  unfold ReportsNan HasResults
  cases ho : (readLine source line next).outcome with
  | error error =>
    rw [(runLine_of_error ho).1]
    simp
  | ok statement? =>
    cases statement? with
    | none =>
      rw [(runLine_of_blank ho).1]
      simp
    | some e =>
      obtain ⟨ts, -, hd, -⟩ := derives_of_readLine ho
      obtain ⟨hvalue, hraised⟩ := evaluate_declareTargets hs.raised hd.shape
      have hv : ∀ v ∈ e.body.literals, v ≠ .nan := by
        intro v hm hn
        obtain ⟨m, hm⟩ := (leaves_of_readLine ho).1 v (Expr.mem_literals_of_mem_body hm)
        rw [hn] at hm
        cases hm
      have hnan := hd.shape.body_arithmetic.denote_eq_nan_iff (hs.store.declare e.targets) hv
      rw [(runLine_of_statement ho).1]
      simp only [Option.some.injEq, forall_eq', Except.ok.injEq, hvalue, hraised]
      rw [ne_eq, List.map_eq_nil_iff, imp_not_comm]
      refine forall_congr' fun hf => ?_
      rw [hnan hf]
      simp

theorem Commits.numeric {before after : Store} {names : List String} {v : Binary64}
    (h : Commits before after names v) (hb : before.environment.Numeric) (hv : v ≠ .nan) :
    after.environment.Numeric := by
  intro name
  rw [Store.environment_apply, h name]
  by_cases hn : name ∈ names
  · rw [if_pos hn]
    simpa [Variable.value] using hv
  · rw [if_neg hn]
    exact hb name

theorem Declares.numeric {before after : Store} {names : List String}
    (h : Declares before after names) (hb : before.environment.Numeric) :
    after.environment.Numeric := by
  intro name
  have hname := hb name
  rw [Store.environment_apply] at hname ⊢
  rw [h name]
  cases hv : before.get? name with
  | some v =>
    rw [hv] at hname
    exact hname
  | none =>
    by_cases hn : name ∈ names
    · rw [if_pos hn]
      exact fun hzero => nomatch hzero
    · rw [if_neg hn]
      exact fun hnone => nomatch hnone

/-- A line that shows its `nan` leaves none behind. -/
theorem Numeric.runLine (hs : s.Numeric) (h : s.ReportsNan source line next) :
    (s.runLine source line next).session.Numeric := by
  unfold ReportsNan at h
  cases ho : (readLine source line next).outcome with
  | error error =>
    rw [(runLine_of_error ho).2]
    exact ⟨rfl, hs.store⟩
  | ok statement? =>
    cases statement? with
    | none =>
      rw [(runLine_of_blank ho).2]
      exact hs
    | some e =>
      obtain ⟨ha, hsession⟩ := runLine_of_statement (s := s) ho
      obtain ⟨ts, -, hd, -⟩ := derives_of_readLine ho
      rcases hev : (s.declareTargets e).evaluate e with ⟨v, after⟩
      rw [hev] at ha hsession
      have hstore := commits_or_declares hd.shape hev
      rw [hsession]
      refine ⟨rfl, ?_⟩
      by_cases hr : after.raised = []
      · rw [if_pos hr] at hstore
        exact hstore.numeric hs.store fun hn => h _ ha hn hr
      · rw [if_neg hr] at hstore
        exact hstore.numeric hs.store

/-- **A run has a `nan` without an error exactly if it has an invalid operation in a line without
errors.** This is about all runs of lines from a session without variables. As long as no operation
on infinities lacks a result, `nan` and errors come together. -/
theorem throughout_reportsNan_iff (verbosity : Nat) (next : NodeId) (ls : List (String × Nat)) :
    (start verbosity).Throughout ReportsNan next ls ↔
      (start verbosity).Throughout HasResults next ls :=
  throughout_iff_of_invariant (I := Numeric) (P := ReportsNan) (Q := HasResults)
    (fun _ _ _ _ hs => reportsNan_iff hs) (fun _ _ _ _ hs h => hs.runLine h)
    (numeric_start verbosity) next ls

/-- The difference of two products beyond the greatest finite number is no error. -/
theorem not_reportsNan_of_overflow :
    ¬ (start 0).Throughout ReportsNan 0 [("1e308 * 10 - 1e308 * 10", 1)] := by
  have hrun : ((start 0).runLine "1e308 * 10 - 1e308 * 10" 1 0).answer? =
      some ⟨.nan, [], true⟩ := by
    decide +kernel
  intro h
  exact h.1 _ hrun rfl rfl

end Session

end LineCalc
