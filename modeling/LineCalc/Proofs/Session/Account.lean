import LineCalc.Proofs.Session.Run

/-!
# What the trace tells

There is one account of everything that happens in a run. It depends on the lines, the variables and
the errors that are pending. The trace tells the part of it that the verbosity reaches, and nothing
that is calculated depends on how much that is.

* `Expr.account` is everything there is to tell about the evaluation of a tree, by recursion on the
  tree and without a session. `Session.account` is the account of a line, and `Session.accounts`
  that of a run.
* `Session.Tells` says that a session was told some events as far as its verbosity reaches.
* `Session.eval_tells`, `Session.runLine_tells` and `Session.behind_tells` are about trees, lines
  and runs.
* `Expr.errors_account` and `Session.errors_accounts`: the account of a run tells every error once,
  in the order in which the errors are raised.
* `Event.OfRun` are the events in accounts, and `Event.OfRun.toldAt_eq` says which of them are told
  at a verbosity.
-/

namespace LineCalc

/-! ## Accounts of trees -/

/-- The events that tell the errors of an effect. -/
def Effect.told (x : Effect) : List Event := x.errors.map fun e => .raised (.evaluation e)

namespace Expr

/-- Everything there is to tell about the evaluation of a tree. -/
def account : Expr → Store → List Event
  | .literal _ id, _ => [.visiting .literal id]
  | .var name id, s => .visiting .var id :: (Effect.read s name id).told
  | .unary op operand id, s =>
    let x := operand.effect s
    .visiting .unary id :: (account operand s ++
      (Effect.settle x.store (op.evalUnary x.value id)).told)
  | .binary op left right id, s =>
    let x := left.effect s
    let y := right.effect x.store
    .visiting .binary id :: (account left s ++ (account right x.store ++
      (Effect.settle y.store (op.evalBinary x.value y.value id)).told))
  | .assign target value id, s =>
    .visiting .assign id ::
      match target with
      | .var name targetId =>
        if s.contains name then
          let x := value.effect s
          account value s ++
            if x.errors = [] then (Effect.write x.store name x.value id).told else [.keeping name]
        else [.raised (.evaluation (.undefined name targetId))]
      | _ => [.raised (.evaluation (.malformed (Session.badTarget target.kind) id))]
  | .print operand id, s => .visiting .print id :: account operand s

end Expr

namespace Session

/-- What the trace has told since it was last collected, oldest first. -/
def trace (s : Session) : List Event := s.diagnostics.trace.toList

/-- The greatest level that the trace tells. -/
def verbosity (s : Session) : Nat := s.diagnostics.verbosity

/-! ## Telling -/

/-- On its way from the session `s` to the session `t`, the trace was told the given events, as far
as the verbosity reaches. -/
structure Tells (s t : Session) (events : List Event) : Prop where
  verbosity : t.verbosity = s.verbosity
  trace : t.trace = s.trace ++ events.filter (Event.toldAt s.verbosity)

variable {s t u : Session} {events events' : List Event}

namespace Tells

/-- What only changes the store or forgets errors tells nothing. -/
theorem nothing (hv : t.verbosity = s.verbosity) (ht : t.trace = s.trace) : Tells s t [] :=
  ⟨hv, by rw [ht, List.filter_nil, List.append_nil]⟩

theorem refl (s : Session) : Tells s s [] := nothing rfl rfl

theorem trans (h : Tells s t events) (h' : Tells t u events') : Tells s u (events ++ events') :=
  ⟨h'.verbosity.trans h.verbosity, by
    rw [h'.trace, h.trace, h.verbosity, List.filter_append, List.append_assoc]⟩

end Tells

theorem tell_tells (s : Session) (e : Event) : Tells s (s.tell e) [e] := by
  have htrace : (s.tell e).trace = s.trace ++ [e].filter (Event.toldAt s.verbosity) := by
    unfold tell Diagnostics.tell trace verbosity
    by_cases h : e.toldAt s.diagnostics.verbosity = true
    · rw [if_pos h, List.filter_cons_of_pos h]
      exact Array.toList_push
    · rw [if_neg h, List.filter_cons_of_neg h]
      exact (List.append_nil _).symm
  refine ⟨?_, htrace⟩
  unfold tell Diagnostics.tell verbosity
  split <;> rfl

theorem raise_tells (s : Session) (e : Error) : Tells s (s.raise e) [.raised e] :=
  have h := tell_tells { s with diagnostics := { s.diagnostics with
    raised := s.diagnostics.raised.push e } } (.raised e)
  ⟨h.verbosity, h.trace⟩

theorem Tells.tell_cons {e : Event} (h : Tells (s.tell e) t events) : Tells s t (e :: events) :=
  (tell_tells s e).trans h

/-! ## The small steps -/

theorem fail_tells (s : Session) (e : EvalError) :
    Tells s (s.fail e).2 [.raised (.evaluation e)] := raise_tells s _

theorem read_tells (s : Session) (name : String) (node : NodeId) :
    Tells s (s.read name node).2 (Effect.read s.store name node).told := by
  unfold read Effect.read
  cases s.store.lookup name with
  | ok value => exact .refl s
  | error _ => exact fail_tells s _

theorem settle_tells (s : Session) (result : Except EvalError Binary64) :
    Tells s (s.settle result).2 (Effect.settle s.store result).told := by
  cases result with
  | ok value => exact .refl s
  | error e => exact fail_tells s e

theorem write_tells (s : Session) (name : String) (value : Binary64) (node : NodeId) :
    Tells s (s.write name value node).2 (Effect.write s.store name value node).told := by
  unfold write Effect.write
  cases s.store.assign name value with
  | ok store => exact .nothing rfl rfl
  | error _ => exact fail_tells s _

/-! ## Trees -/

/-- **Evaluation tells the account of the tree**, as far as the verbosity reaches. -/
theorem eval_tells (e : Expr) (s : Session) : Tells s (eval e s).2 (e.account s.store) := by
  induction e generalizing s with
  | literal value id => exact tell_tells s _
  | var name id => exact (read_tells (s.tell _) name id).tell_cons
  | unary op operand id ih =>
    have hx := ih (s.tell (.visiting .unary id))
    have hy := eval_yields operand (s.tell (.visiting .unary id))
    rw [store_tell] at hx hy
    have hs := settle_tells (eval operand (s.tell (.visiting .unary id))).2
      (op.evalUnary (operand.effect s.store).value id)
    rw [hy.store] at hs
    simp only [eval, Expr.account, hy.value]
    exact (hx.trans hs).tell_cons
  | binary op left right id ihl ihr =>
    have hx := ihl (s.tell (.visiting .binary id))
    have hl := eval_yields left (s.tell (.visiting .binary id))
    rw [store_tell] at hx hl
    have hy := ihr (eval left (s.tell (.visiting .binary id))).2
    have hr := eval_yields right (eval left (s.tell (.visiting .binary id))).2
    rw [hl.store] at hy hr
    have hs := settle_tells (eval right (eval left (s.tell (.visiting .binary id))).2).2
      (op.evalBinary (left.effect s.store).value (right.effect (left.effect s.store).store).value
        id)
    rw [hr.store] at hs
    simp only [eval, Expr.account, hl.value, hr.value]
    exact (hx.trans (hy.trans hs)).tell_cons
  | assign target value id iht ihv =>
    cases target with
    | var name targetId =>
      simp only [eval, Expr.account]
      by_cases hn : s.store.contains name = true
      · have hn' : (s.tell (.visiting .assign id)).store.contains name = true := hn
        rw [if_pos hn, if_pos hn']
        have hx := ihv (s.tell (.visiting .assign id))
        have hy := eval_yields value (s.tell (.visiting .assign id))
        rw [store_tell] at hx hy
        have hc := hy.count_lt_iff
        by_cases he : (value.effect s.store).errors = []
        · rw [if_neg (fun h => hc.mp h he), if_pos he, hy.value]
          have hw := write_tells (eval value (s.tell (.visiting .assign id))).2 name
            (value.effect s.store).value id
          rw [hy.store] at hw
          exact (hx.trans hw).tell_cons
        · rw [if_pos (hc.mpr he), if_neg he]
          exact (hx.trans (tell_tells _ _)).tell_cons
      · have hn' : ¬ (s.tell (.visiting .assign id)).store.contains name = true := hn
        rw [if_neg hn, if_neg hn']
        exact (fail_tells (s.tell _) _).tell_cons
    | _ => exact (fail_tells (s.tell _) _).tell_cons
  | print operand id ih =>
    have hx := ih (s.tell (.visiting .print id))
    rw [store_tell] at hx
    exact hx.tell_cons

/-! ## Lines -/

theorem evaluate_tells (h : s.raised = []) (e : Expr) :
    Tells s (s.evaluate e).2 (.traversing :: e.account s.store) := by
  have hc : s.diagnostics.count = 0 := by rw [count_eq_length, h, List.length_nil]
  rw [evaluate, if_pos hc]
  exact (eval_tells e (s.tell .traversing)).tell_cons

theorem evaluate_tells_of_pending (h : s.raised ≠ []) (e : Expr) :
    Tells s (s.evaluate e).2 [.skipping s.raised.length] := by
  have hc : s.diagnostics.count ≠ 0 := by
    rw [count_eq_length]
    exact fun h0 => h (List.length_eq_zero_iff.mp h0)
  rw [evaluate, if_neg hc, count_eq_length]
  exact tell_tells s _

/-- Everything there is to tell about the declarations in front of an evaluation. -/
def declarations (s : Session) : List String → List Event
  | [] => []
  | name :: names =>
    (if s.store.contains name then [] else [.declared name]) ++
      declarations (s.declareTarget name) names

theorem declareTarget_tells (s : Session) (name : String) :
    Tells s (s.declareTarget name)
      (if s.store.contains name then [] else [.declared name]) := by
  unfold declareTarget Store.declare
  by_cases hc : s.store.contains name = true
  · rw [if_pos hc, if_pos hc]
    exact .refl s
  · rw [if_neg hc, if_neg hc]
    have h := tell_tells { s with store := s.store.put name .unassigned } (.declared name)
    exact ⟨h.verbosity, h.trace⟩

theorem foldl_declareTarget_tells (names : List String) (s : Session) :
    Tells s (names.foldl declareTarget s) (s.declarations names) := by
  induction names generalizing s with
  | nil => exact .refl s
  | cons name names ih => exact (declareTarget_tells s name).trans (ih _)

/-- Everything there is to tell about a line. -/
def account (s : Session) (source : String) (line : Nat) (next : NodeId) : List Event :=
  match (readLine source line next).outcome with
  | .ok none => []
  | .ok (some e) =>
    s.declarations e.targets ++
      if s.raised = [] then .traversing :: e.account (s.declareTargets e).store
      else [.skipping s.raised.length]
  | .error x => [.raised (.parsing x)]

/-- **A line tells its account.** -/
theorem runLine_tells (s : Session) (source : String) (line : Nat) (next : NodeId) :
    Tells s (s.runLine source line next).session (s.account source line next) := by
  unfold account
  cases ho : (readLine source line next).outcome with
  | error x =>
    rw [(runLine_of_error ho).2]
    exact (raise_tells s _).trans (.nothing rfl rfl)
  | ok statement? =>
    cases statement? with
    | none =>
      rw [(runLine_of_blank ho).2]
      exact .refl s
    | some e =>
      rw [(runLine_of_statement ho).2]
      have hd : Tells s (s.declareTargets e) _ := foldl_declareTarget_tells e.targets s
      have hr := raised_declareTargets s e
      refine hd.trans ?_
      by_cases hp : s.raised = []
      · rw [if_pos hp]
        have he := evaluate_tells (hr.trans hp) e
        exact ⟨he.verbosity, he.trace⟩
      · rw [if_neg hp, ← hr]
        have he := evaluate_tells_of_pending (hr.symm ▸ hp) e
        exact ⟨he.verbosity, he.trace⟩

/-! ## Runs -/

/-- Everything there is to tell about a run. -/
def accounts (s : Session) (next : NodeId) : List (String × Nat) → List Event
  | [] => []
  | (source, line) :: more =>
    let turn := s.runLine source line next
    s.account source line next ++ accounts turn.session turn.next more

/-- **A run tells the accounts of its lines**, as far as the verbosity reaches. -/
theorem behind_tells (s : Session) (next : NodeId) (ls : List (String × Nat)) :
    Tells s (s.behind next ls).1 (s.accounts next ls) := by
  induction ls generalizing s next with
  | nil => exact .refl s
  | cons l ls ih =>
    obtain ⟨source, line⟩ := l
    exact (runLine_tells s source line next).trans (ih _ _)

end Session

/-! ## Errors in an account -/

/-- The error that an event tells. -/
def Event.error? : Event → Option Error
  | raised error => some error
  | _ => none

theorem Effect.errors_told (x : Effect) :
    x.told.filterMap Event.error? = x.errors.map .evaluation := by
  rw [told, List.filterMap_map, ← List.filterMap_eq_map]
  rfl

/-- The account of a tree tells the errors of its effect. -/
theorem Expr.errors_account (e : Expr) (s : Store) :
    (e.account s).filterMap Event.error? = (e.effect s).errors.map .evaluation := by
  induction e generalizing s with
  | literal value id => rfl
  | var name id => exact Effect.errors_told _
  | unary op operand id ih =>
    simp only [account, effect, List.filterMap_cons, Event.error?, List.filterMap_append, ih,
      Effect.errors_told, Effect.after, List.map_append]
  | binary op left right id ihl ihr =>
    simp only [account, effect, List.filterMap_cons, Event.error?, List.filterMap_append, ihl, ihr,
      Effect.errors_told, Effect.after, List.map_append]
  | assign target value id iht ihv =>
    cases target with
    | var name targetId =>
      simp only [account, effect, List.filterMap_cons, Event.error?]
      by_cases hn : s.contains name = true
      · rw [if_pos hn, if_pos hn, List.filterMap_append, ihv]
        by_cases he : (value.effect s).errors = []
        · rw [if_pos he, if_pos he, Effect.errors_told, he]
          rfl
        · rw [if_neg he, if_neg he]
          exact List.append_nil _
      · rw [if_neg hn, if_neg hn]
        rfl
    | _ => rfl
  | print operand id ih => exact ih s

namespace Session

theorem errors_declarations (s : Session) (names : List String) :
    (s.declarations names).filterMap Event.error? = [] := by
  induction names generalizing s with
  | nil => rfl
  | cons name names ih =>
    rw [declarations, List.filterMap_append, ih]
    split <;> rfl

/-- The errors that are pending in front of a line and those that its account tells are those that
its answer has and those that are pending behind it. -/
theorem errors_account (s : Session) (source : String) (line : Nat) (next : NodeId) :
    s.raised ++ (s.account source line next).filterMap Event.error? =
      (s.runLine source line next).answer?.toList.flatMap Answer.errors ++
        (s.runLine source line next).session.raised := by
  unfold account
  cases ho : (readLine source line next).outcome with
  | error x =>
    rw [(runLine_of_error ho).1, (runLine_of_error ho).2]
    simp [Event.error?]
  | ok statement? =>
    cases statement? with
    | none =>
      rw [(runLine_of_blank ho).1, (runLine_of_blank ho).2]
      simp
    | some e =>
      rw [(runLine_of_statement ho).1, (runLine_of_statement ho).2, List.filterMap_append,
        errors_declarations]
      have hr := raised_declareTargets s e
      by_cases hp : s.raised = []
      · have hy := evaluate_yields (hr.trans hp) e
        rw [if_pos hp, List.filterMap_cons, Expr.errors_account]
        simp [Event.error?, hy.raised, hr]
      · have hy := evaluate_of_pending (hr.symm ▸ hp) e
        rw [if_neg hp]
        simp [Event.error?, hy.raised, hr]

/-- **The account of a run tells every error once**, in the order in which the errors are raised. -/
theorem errors_accounts (s : Session) (next : NodeId) (ls : List (String × Nat)) :
    s.raised ++ (s.accounts next ls).filterMap Event.error? =
      (s.answers next ls).flatMap Answer.errors ++ (s.behind next ls).1.raised := by
  induction ls generalizing s next with
  | nil => exact List.append_nil _
  | cons l ls ih =>
    obtain ⟨source, line⟩ := l
    rw [accounts, List.filterMap_append, ← List.append_assoc, errors_account, List.append_assoc, ih,
      answers_cons, List.flatMap_append, List.append_assoc]
    rfl

end Session

/-! ## Levels in an account -/

/-- The events of runs; messages at a level of their own are not among them. -/
def Event.OfRun : Event → Prop
  | note _ _ => False
  | _ => True

/-- Whether messages of a severity are told: debug messages from verbosity 1 on, trace messages from
verbosity 2 on, and all others always. -/
def Severity.keptAt (verbosity : Nat) : Severity → Bool
  | debug => 1 ≤ verbosity
  | trace => 2 ≤ verbosity
  | _ => true

/-- The severity of an event of a run decides whether it is told. -/
theorem Event.OfRun.toldAt_eq {e : Event} (h : e.OfRun) (verbosity : Nat) :
    e.toldAt verbosity = e.severity.keptAt verbosity := by
  cases e with
  | note level text => exact h.elim
  | _ => rfl

theorem Effect.ofRun_of_mem_told {x : Effect} {e : Event} (h : e ∈ x.told) : e.OfRun := by
  obtain ⟨_, -, rfl⟩ := List.mem_map.mp h
  trivial

theorem Expr.ofRun_of_mem_account {e : Expr} {s : Store} : ∀ v ∈ e.account s, v.OfRun := by
  induction e generalizing s with
  | literal value id => simp [account, Event.OfRun]
  | var name id =>
    exact List.forall_mem_cons.mpr ⟨trivial, fun _ h => Effect.ofRun_of_mem_told h⟩
  | unary op operand id ih =>
    exact List.forall_mem_cons.mpr ⟨trivial, List.forall_mem_append.mpr
      ⟨ih, fun _ h => Effect.ofRun_of_mem_told h⟩⟩
  | binary op left right id ihl ihr =>
    exact List.forall_mem_cons.mpr ⟨trivial, List.forall_mem_append.mpr
      ⟨ihl, List.forall_mem_append.mpr ⟨ihr, fun _ h => Effect.ofRun_of_mem_told h⟩⟩⟩
  | assign target value id iht ihv =>
    refine List.forall_mem_cons.mpr ⟨trivial, ?_⟩
    split
    · split
      · refine List.forall_mem_append.mpr ⟨ihv, ?_⟩
        split
        · exact fun _ h => Effect.ofRun_of_mem_told h
        · exact List.forall_mem_singleton.mpr trivial
      · exact List.forall_mem_singleton.mpr trivial
    · exact List.forall_mem_singleton.mpr trivial
  | print operand id ih => exact List.forall_mem_cons.mpr ⟨trivial, ih⟩

namespace Session

theorem ofRun_of_mem_declarations {s : Session} {names : List String} :
    ∀ v ∈ s.declarations names, v.OfRun := by
  induction names generalizing s with
  | nil => exact fun _ h => nomatch h
  | cons name names ih =>
    refine List.forall_mem_append.mpr ⟨?_, ih⟩
    split
    · exact fun _ h => nomatch h
    · exact List.forall_mem_singleton.mpr trivial

theorem ofRun_of_mem_account {s : Session} {source : String} {line : Nat} {next : NodeId} :
    ∀ v ∈ s.account source line next, v.OfRun := by
  unfold account
  split
  · exact fun _ h => nomatch h
  · refine List.forall_mem_append.mpr ⟨ofRun_of_mem_declarations, ?_⟩
    split
    · exact List.forall_mem_cons.mpr ⟨trivial, Expr.ofRun_of_mem_account⟩
    · exact List.forall_mem_singleton.mpr trivial
  · exact List.forall_mem_singleton.mpr trivial

/-- Runs tell no messages at a level of their own. -/
theorem ofRun_of_mem_accounts {s : Session} {next : NodeId} {ls : List (String × Nat)} :
    ∀ v ∈ s.accounts next ls, v.OfRun := by
  induction ls generalizing s next with
  | nil => exact fun _ h => nomatch h
  | cons l ls ih => exact List.forall_mem_append.mpr ⟨ofRun_of_mem_account, ih⟩

end Session

end LineCalc
