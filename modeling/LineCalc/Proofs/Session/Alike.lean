import LineCalc.Proofs.Error.Message
import LineCalc.Proofs.Phrase.Uniform
import LineCalc.Proofs.Session.Run

/-!
# Runs that differ in numbers only

What a line amounts to depends on its tokens, on the variables and on the errors that are pending.
It does not depend on the numbers of nodes, on the trace, or on blanks and line ends.

* `Answer.unnumbered` is an answer without the numbers of nodes in its errors, and `Session.Level`
  says that two sessions have the same variables and no errors pending.
* `Session.Level.answer?_eq` and `Session.Level.runLine`: a line with the same tokens has the same
  answer in both sessions, up to numbers, and they are level again behind it.
* `Session.Level.replies_eq` is about runs.
* `Session.ofLine_of_mem_answers`: the errors of a run are those that a line can raise.
-/

namespace LineCalc

/-- The answer with the numbers of nodes in its errors set to zero. -/
def Answer.unnumbered (a : Answer) : Answer := { a with errors := a.errors.map Error.unnumbered }

theorem EvalError.unnumbered_comp_evaluation :
    Error.unnumbered ∘ Error.evaluation = Error.evaluation ∘ EvalError.unnumbered := by
  funext e
  rfl

/-- Trees that are alike have the same effect up to the numbers in its errors. -/
theorem Expr.Alike.effect_unnumbered {e f : Expr} (h : e.Alike f) (s : Store) :
    (e.effect s).unnumbered = (f.effect s).unnumbered := by
  rw [← Expr.effect_unnumbered, ← Expr.effect_unnumbered]
  exact congrArg (Expr.effect · s) h

namespace Session

/-- Two sessions with the same variables and no errors pending. -/
structure Level (s s' : Session) : Prop where
  store : s.store = s'.store
  raised : s.raised = []
  raised' : s'.raised = []

theorem level_start (verbosity verbosity' : Nat) : Level (start verbosity) (start verbosity') :=
  ⟨rfl, rfl, rfl⟩

namespace Level

variable {s s' : Session}

/-- Evaluating trees that are alike in sessions that are level. -/
theorem evaluate {e f : Expr} (h : Level s s') (hef : e.Alike f) :
    (s.evaluate e).1 = (s'.evaluate f).1 ∧
      (s.evaluate e).2.store = (s'.evaluate f).2.store ∧
      (s.evaluate e).2.raised.map Error.unnumbered =
        (s'.evaluate f).2.raised.map Error.unnumbered := by
  have he := evaluate_yields h.raised e
  have hf := evaluate_yields h.raised' f
  have hx := hef.effect_unnumbered s.store
  rw [← h.store] at hf
  simp only [Effect.unnumbered, Effect.mk.injEq] at hx
  refine ⟨by rw [he.value, hf.value, hx.1], by rw [he.store, hf.store, hx.2.1], ?_⟩
  rw [he.raised, hf.raised, h.raised, h.raised', List.nil_append, List.nil_append, List.map_map,
    List.map_map, EvalError.unnumbered_comp_evaluation, ← List.map_map, ← List.map_map, hx.2.2]

theorem declareTargets {e f : Expr} (h : Level s s') (hef : e.Alike f) :
    Level (s.declareTargets e) (s'.declareTargets f) where
  store := by
    apply Store.ext_get?
    intro name
    rw [get?_declareTargets, get?_declareTargets, h.store, hef.targets_eq]
  raised := (raised_declareTargets s e).trans h.raised
  raised' := (raised_declareTargets s' f).trans h.raised'

variable {source source' : String} {line : Nat}

/-- **A line has the same answer in sessions that are level**, up to the numbers of nodes, and
behind it they are level again. -/
theorem runLine (h : Level s s') (ht : tokenize source line = tokenize source' line)
    (next next' : NodeId) :
    (s.runLine source line next).answer?.map Answer.unnumbered =
        (s'.runLine source' line next').answer?.map Answer.unnumbered ∧
      Level (s.runLine source line next).session (s'.runLine source' line next').session := by
  have ho := readLine_alike ht next next'
  generalize hx : (readLine source line next).outcome = x at ho
  generalize hy : (readLine source' line next').outcome = y at ho
  cases ho with
  | blank =>
    obtain ⟨ha, hs⟩ := runLine_of_blank (s := s) hx
    obtain ⟨ha', hs'⟩ := runLine_of_blank (s := s') hy
    rw [ha, ha', hs, hs']
    exact ⟨rfl, h⟩
  | error =>
    obtain ⟨ha, hs⟩ := runLine_of_error (s := s) hx
    obtain ⟨ha', hs'⟩ := runLine_of_error (s := s') hy
    rw [ha, ha', hs, hs', h.raised, h.raised']
    exact ⟨rfl, h.store, rfl, rfl⟩
  | statement hef =>
    obtain ⟨ha, hs⟩ := runLine_of_statement (s := s) hx
    obtain ⟨ha', hs'⟩ := runLine_of_statement (s := s') hy
    obtain ⟨hvalue, hstore, hraised⟩ := (h.declareTargets hef).evaluate hef
    rw [ha, ha', hs, hs']
    refine ⟨?_, hstore, rfl, rfl⟩
    simp only [Option.map_some, Answer.unnumbered, hvalue, hraised, hef.isAssign_eq]

/-- Replacing lines by lines with the same tokens does not change the answers in a run, up to the
numbers of nodes. -/
theorem replies_eq (h : Level s s') {f : String → String}
    (hf : ∀ l line, tokenize (f l) line = tokenize l line) (ls : List (String × Nat))
    (next next' : NodeId) :
    (s.replies next (ls.map (Prod.map f id))).map (Option.map Answer.unnumbered) =
      (s'.replies next' ls).map (Option.map Answer.unnumbered) := by
  induction ls generalizing s s' next next' with
  | nil => rfl
  | cons l ls ih =>
    obtain ⟨source, line⟩ := l
    obtain ⟨ha, hs⟩ := h.runLine (hf source line) next next'
    simp only [List.map_cons, Prod.map_apply, id_eq, replies, ha]
    rw [ih hs]

end Level

end Session

/-! ## The errors of a run -/

namespace Expr

variable {e : Expr} {name : String} {id : NodeId}

theorem mem_postorder_of_mem_body {node : Expr} (h : node ∈ e.body.postorder) :
    node ∈ e.postorder := by
  induction e with
  | assign target value id iht ihv => simp [postorder, ihv h]
  | print operand id ih => simp [postorder, ih h]
  | _ => exact h

/-- The faults of arithmetic are errors that a line can raise. -/
theorem ofLine_of_mem_faults {env : Environment} (hn : ∀ name ∈ e.names, IsName name)
    {x : EvalError} (h : x ∈ e.body.faults env) : (Error.evaluation x).OfLine := by
  obtain ⟨node, hnode, hx⟩ := List.mem_filterMap.mp h
  cases node with
  | var name id =>
    rw [fault?] at hx
    split at hx
    · cases hx
      exact hn name (mem_names_of_mem_postorder (mem_postorder_of_mem_body hnode))
    · cases hx
  | binary op left right id =>
    rw [fault?] at hx
    split at hx
    · cases hx
      trivial
    · cases hx
  | _ => cases hx

end Expr

namespace Session

variable {s : Session} {source : String} {line : Nat} {next : NodeId} {a : Answer}

/-- The errors of an answer are those that a line can raise. -/
theorem ofLine_of_runLine (hs : s.raised = [])
    (h : (s.runLine source line next).answer? = some a) : ∀ x ∈ a.errors, x.OfLine := by
  cases ho : (readLine source line next).outcome with
  | error x =>
    rw [(runLine_of_error ho).1, hs] at h
    cases h
    exact List.forall_mem_singleton.mpr (oneLine_message_of_readLine ho)
  | ok statement? =>
    cases statement? with
    | none =>
      rw [(runLine_of_blank ho).1] at h
      cases h
    | some e =>
      obtain ⟨ts, -, hd, -⟩ := derives_of_readLine ho
      rw [(runLine_of_statement ho).1] at h
      cases h
      intro x hx
      simp only [(evaluate_declareTargets hs hd.shape).2] at hx
      obtain ⟨y, hy, rfl⟩ := List.mem_map.mp hx
      exact Expr.ofLine_of_mem_faults (leaves_of_readLine ho).2 hy

/-- No error is pending behind a line if none was before it. -/
theorem raised_runLine (hs : s.raised = []) : (s.runLine source line next).session.raised = [] :=
  have hsame : Level s s := ⟨rfl, hs, hs⟩
  (hsame.runLine rfl next next).2.raised

theorem ofLine_of_mem_answers (hs : s.raised = []) {ls : List (String × Nat)}
    (h : a ∈ s.answers next ls) : ∀ x ∈ a.errors, x.OfLine := by
  induction ls generalizing s next with
  | nil => cases h
  | cons l ls ih =>
    obtain ⟨source, line⟩ := l
    rw [answers_cons, List.mem_append, Option.mem_toList] at h
    rcases h with h | h
    · exact ofLine_of_runLine hs h
    · exact ih (raised_runLine hs) h

end Session

end LineCalc
