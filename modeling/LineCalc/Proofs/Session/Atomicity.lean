import LineCalc.Proofs.Phrase.Line
import LineCalc.Proofs.Session.Statement
import LineCalc.Session

/-!
# A line is all or nothing

A line without errors gives its value to all the names that it assigns to. A line with an error
gives a value to none of them; it leaves behind no more than the declaration of those that were not
declared.

* `LineReply.targets` are the names that a line assigns to, none if it holds no statement.
* `Session.runLine_of_statement` and `Session.runLine_of_error`: what a line comes to, in terms of
  the evaluation of its tree.
* `Session.runLine_all_or_nothing` is the statement for every line in every session, with errors
  pending or not.
-/

namespace LineCalc

/-- The names that the statement of a line assigns to. -/
def LineReply.targets (r : LineReply) : List String :=
  match r.outcome with
  | .ok (some e) => e.targets
  | _ => []

theorem LineReply.targets_of_ok {r : LineReply} {e : Expr} (h : r.outcome = .ok (some e)) :
    r.targets = e.targets := by
  unfold targets
  rw [h]

theorem LineReply.targets_of_error {r : LineReply} {error : SyntaxError}
    (h : r.outcome = .error error) : r.targets = [] := by
  unfold targets
  rw [h]

namespace Session

variable {s : Session} {source : String} {line : Nat} {next : NodeId} {e : Expr}

theorem runLine_of_blank (h : (readLine source line next).outcome = .ok none) :
    (s.runLine source line next).answer? = none ∧ (s.runLine source line next).session = s := by
  unfold runLine
  simp only [h, and_self]

theorem runLine_of_statement (h : (readLine source line next).outcome = .ok (some e)) :
    (s.runLine source line next).answer? =
        some ⟨((s.declareTargets e).evaluate e).1, ((s.declareTargets e).evaluate e).2.raised,
          !e.isAssign⟩ ∧
      (s.runLine source line next).session = ((s.declareTargets e).evaluate e).2.reset := by
  unfold runLine
  simp only [h]
  exact ⟨rfl, rfl⟩

theorem runLine_of_error {error : SyntaxError}
    (h : (readLine source line next).outcome = .error error) :
    (s.runLine source line next).answer? = some ⟨.nan, s.raised ++ [.parsing error], false⟩ ∧
      (s.runLine source line next).session = (s.raise (.parsing error)).reset := by
  unfold runLine
  simp only [h]
  refine ⟨?_, rfl⟩
  rw [← raised_raise s (.parsing error)]
  rfl

/-- The variables of `after` are those of `before`, apart from the given names, which all have the
given value. -/
def Commits (before after : Store) (names : List String) (value : Binary64) : Prop :=
  ∀ name, after.get? name =
    if name ∈ names then some (.assigned value) else before.get? name

/-- The variables of `after` are those of `before`, and the given names that were not declared,
which have no value. -/
def Declares (before after : Store) (names : List String) : Prop :=
  ∀ name, after.get? name =
    (before.get? name).or (if name ∈ names then some .unassigned else none)

/-- Evaluating a statement whose variables are declared stores its value under every name that it
assigns to if no error is raised, and stores nothing otherwise. -/
theorem commits_or_declares (h : e.Statement) {v : Binary64} {after : Session}
    (hv : (s.declareTargets e).evaluate e = (v, after)) :
    if after.raised = [] then Commits s.store after.store e.targets v
    else Declares s.store after.store e.targets := by
  have hc := contains_declareTargets s e
  have hg := get?_declareTargets s e
  have hb : (s.declareTargets e).raised = s.raised := raised_declareTargets s e
  by_cases hp : s.raised = []
  · have hy := evaluate_yields (hb.trans hp) e
    have hr : after.raised = _ := hv ▸ hy.raised
    have hst : after.store = _ := hv ▸ hy.store
    have hval : v = _ := hv ▸ hy.value
    rw [hb, hp, List.nil_append] at hr
    by_cases he : (e.body.effect (s.declareTargets e).store).errors = []
    · obtain ⟨hn, hbody, hstore⟩ := h.effect_of_errors_eq_nil hc he
      rw [hr, hn, if_pos List.map_nil]
      intro name
      rw [hst, hstore name, hval, hbody, hg name]
      by_cases hm : name ∈ e.targets
      · rw [if_pos hm, if_pos hm]
      · rw [if_neg hm, if_neg hm, if_neg hm, Option.or_none]
    · obtain ⟨hn, hstore, -⟩ := h.effect_of_errors_ne_nil hc he
      rw [hr, hn, if_neg (fun hm => he (List.map_eq_nil_iff.mp hm))]
      intro name
      rw [hst, hstore, hg name]
  · have hy := evaluate_of_pending (fun hn => hp (hb.symm.trans hn)) e
    have hr : after.raised = _ := hv ▸ hy.raised
    have hst : after.store = _ := hv ▸ hy.store
    rw [hb, List.map_nil, List.append_nil] at hr
    rw [hr, if_neg hp]
    intro name
    rw [hst, hg name]

/-- **A line is all or nothing.** Without an error, every name that the line assigns to has the
value of the line, and the other variables are as before. With an error, every variable is as
before, and the names that the line assigns to and that were not declared are declared without a
value. The channel is empty afterwards. A line without an answer changes nothing. -/
theorem runLine_all_or_nothing (s : Session) (source : String) (line : Nat) (next : NodeId) :
    match (s.runLine source line next).answer? with
    | none => (s.runLine source line next).session = s
    | some answer =>
      (s.runLine source line next).session.diagnostics.raised = #[] ∧
      if answer.errors = [] then
        Commits s.store (s.runLine source line next).session.store
          (readLine source line next).targets answer.value
      else
        Declares s.store (s.runLine source line next).session.store
          (readLine source line next).targets := by
  cases ho : (readLine source line next).outcome with
  | ok statement? =>
    cases statement? with
    | none =>
      obtain ⟨ha, hs⟩ := runLine_of_blank (s := s) ho
      rw [ha]
      exact hs
    | some e =>
      obtain ⟨ha, hs⟩ := runLine_of_statement (s := s) ho
      obtain ⟨ts, -, hd, -⟩ := derives_of_readLine ho
      rw [ha, hs, LineReply.targets_of_ok ho]
      exact ⟨rfl, commits_or_declares hd.shape rfl⟩
  | error error =>
    obtain ⟨ha, hs⟩ := runLine_of_error (s := s) ho
    rw [ha, hs, LineReply.targets_of_error ho]
    refine ⟨rfl, ?_⟩
    rw [if_neg (by simp)]
    intro name
    simp

end Session

end LineCalc
