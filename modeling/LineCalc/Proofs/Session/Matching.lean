import LineCalc.Proofs.Session.Account

/-!
# Sessions that match

A session is its variables and the errors that are pending, as far as the lines to come are
concerned. What the trace has told, and how much it tells, makes no difference to them.

* `Session.Matches` compares two sessions that way.
* `Session.Matches.evaluate` and `Session.Matches.runLine`: trees and lines come to the same in
  sessions that match, and the sessions match behind them.
* `Session.Matches.replies_eq`, `Session.Matches.behind` and `Session.Matches.accounts_eq` are about
  runs.
-/

namespace LineCalc

namespace Session

/-- Two sessions with the same variables and the same errors pending. -/
structure Matches (s s' : Session) : Prop where
  store : s.store = s'.store
  raised : s.raised = s'.raised

/-- The number for the next node behind a line depends on the line alone. -/
theorem next_runLine (s : Session) (source : String) (line : Nat) (next : NodeId) :
    (s.runLine source line next).next = (readLine source line next).nodes.next := by
  unfold runLine
  dsimp only
  split <;> rfl

namespace Matches

variable {s s' : Session}

theorem refl (s : Session) : Matches s s := ⟨rfl, rfl⟩

/-! ## Trees -/

theorem declareTarget (h : Matches s s') (name : String) :
    Matches (s.declareTarget name) (s'.declareTarget name) where
  store := by
    apply Store.ext_get?
    intro other
    rw [get?_declareTarget, get?_declareTarget, h.store]
  raised := by rw [raised_declareTarget, raised_declareTarget, h.raised]

theorem declareTargets (h : Matches s s') (e : Expr) :
    Matches (s.declareTargets e) (s'.declareTargets e) where
  store := by
    apply Store.ext_get?
    intro name
    rw [get?_declareTargets, get?_declareTargets, h.store]
  raised := by rw [raised_declareTargets, raised_declareTargets, h.raised]

theorem evaluate (h : Matches s s') (e : Expr) :
    (s.evaluate e).1 = (s'.evaluate e).1 ∧ Matches (s.evaluate e).2 (s'.evaluate e).2 := by
  by_cases hp : s.raised = []
  · have hx := evaluate_yields hp e
    have hx' := evaluate_yields (h.raised.symm.trans hp) e
    rw [← h.store] at hx'
    refine ⟨hx.value.trans hx'.value.symm, hx.store.trans hx'.store.symm, ?_⟩
    rw [hx.raised, hx'.raised, h.raised]
  · have hx := evaluate_of_pending hp e
    have hx' := evaluate_of_pending (h.raised ▸ hp) e
    rw [← h.store] at hx'
    refine ⟨hx.value.trans hx'.value.symm, hx.store.trans hx'.store.symm, ?_⟩
    rw [hx.raised, hx'.raised, h.raised]

/-! ## Lines -/

/-- **A line has the same answer in sessions that match**, and they match behind it. -/
theorem runLine (h : Matches s s') (source : String) (line : Nat) (next : NodeId) :
    (s.runLine source line next).answer? = (s'.runLine source line next).answer? ∧
      Matches (s.runLine source line next).session (s'.runLine source line next).session := by
  cases ho : (readLine source line next).outcome with
  | error x =>
    rw [(runLine_of_error ho).1, (runLine_of_error ho).1, (runLine_of_error ho).2,
      (runLine_of_error ho).2, h.raised]
    exact ⟨rfl, h.store, rfl⟩
  | ok statement? =>
    cases statement? with
    | none =>
      rw [(runLine_of_blank ho).1, (runLine_of_blank ho).1, (runLine_of_blank ho).2,
        (runLine_of_blank ho).2]
      exact ⟨rfl, h⟩
    | some e =>
      obtain ⟨hvalue, hmatch⟩ := (h.declareTargets e).evaluate e
      rw [(runLine_of_statement ho).1, (runLine_of_statement ho).1, (runLine_of_statement ho).2,
        (runLine_of_statement ho).2, hvalue, hmatch.raised]
      exact ⟨rfl, hmatch.store, rfl⟩

theorem declarations_eq (h : Matches s s') (names : List String) :
    s.declarations names = s'.declarations names := by
  induction names generalizing s s' with
  | nil => rfl
  | cons name names ih => rw [declarations, declarations, h.store, ih (h.declareTarget name)]

theorem account_eq (h : Matches s s') (source : String) (line : Nat) (next : NodeId) :
    s.account source line next = s'.account source line next := by
  unfold account
  split
  · rfl
  · rename_i e _
    rw [h.declarations_eq, h.raised, (h.declareTargets e).store]
  · rfl

/-! ## Runs -/

theorem replies_eq (h : Matches s s') (next : NodeId) (ls : List (String × Nat)) :
    s.replies next ls = s'.replies next ls := by
  induction ls generalizing s s' next with
  | nil => rfl
  | cons l ls ih =>
    obtain ⟨source, line⟩ := l
    obtain ⟨ha, hs⟩ := h.runLine source line next
    simp only [replies, ha, ih hs, next_runLine]

theorem behind (h : Matches s s') (next : NodeId) (ls : List (String × Nat)) :
    Matches (s.behind next ls).1 (s'.behind next ls).1 ∧
      (s.behind next ls).2 = (s'.behind next ls).2 := by
  induction ls generalizing s s' next with
  | nil => exact ⟨h, rfl⟩
  | cons l ls ih =>
    obtain ⟨source, line⟩ := l
    have hs := (h.runLine source line next).2
    simp only [Session.behind, next_runLine]
    exact ih hs _

theorem accounts_eq (h : Matches s s') (next : NodeId) (ls : List (String × Nat)) :
    s.accounts next ls = s'.accounts next ls := by
  induction ls generalizing s s' next with
  | nil => rfl
  | cons l ls ih =>
    obtain ⟨source, line⟩ := l
    have hs := (h.runLine source line next).2
    simp only [accounts, h.account_eq, ih hs, next_runLine]

end Matches

end Session

end LineCalc
