import LineCalc.Proofs.Session.Matching

/-!
# How much is told

The verbosity decides how much of a run the trace tells, and nothing else.

* `Session.withVerbosity` changes the verbosity of a session, and `Session.told` is what the trace
  tells during a run.
* `Session.told_withVerbosity`: what is told at a verbosity is what is told at any greater one
  without the messages whose severity the verbosity does not reach.
* `Session.errors_told`: every error is told, once and in order, at any verbosity.
-/

namespace LineCalc

/-- Of what can be told, the messages of severity error are errors that were raised. -/
theorem Event.guard_severity_eq_error (e : Event) (verbosity : Nat) :
    Option.guard (fun e => decide (e.severity = .error) && e.toldAt verbosity) e =
      e.error?.map Event.raised := by
  cases e with
  | note level text =>
    match level with
    | 0 => rfl
    | 1 => rfl
    | _ + 2 => rfl
  | _ => rfl

namespace Session

/-- The session at another verbosity. -/
def withVerbosity (s : Session) (verbosity : Nat) : Session :=
  { s with diagnostics := s.diagnostics.setVerbosity verbosity }

/-- What the trace tells during a run. -/
def told (s : Session) (next : NodeId) (ls : List (String × Nat)) : List Event :=
  (s.collect.behind next ls).1.trace

/-- Sessions that differ in their verbosity only match. -/
theorem withVerbosity_matches (s : Session) (v v' : Nat) :
    Matches (s.withVerbosity v) (s.withVerbosity v') :=
  ⟨rfl, rfl⟩

variable (s : Session) (next : NodeId) (ls : List (String × Nat))

/-- A run tells its account, as far as the verbosity reaches. -/
theorem told_eq : s.told next ls = (s.accounts next ls).filter (Event.toldAt s.verbosity) := by
  have hmatch : Matches s.collect s := ⟨rfl, rfl⟩
  have htells := (behind_tells s.collect next ls).trace
  rwa [hmatch.accounts_eq, show s.collect.trace = [] from rfl, List.nil_append] at htells

/-- **What is told at a verbosity is a part of what is told at a greater one**, and the severity of
a message decides whether it belongs to that part. -/
theorem told_withVerbosity {v v' : Nat} (h : v ≤ v') :
    (s.withVerbosity v).told next ls =
      ((s.withVerbosity v').told next ls).filter fun e => e.severity.keptAt v := by
  rw [told_eq, told_eq, (s.withVerbosity_matches v v').accounts_eq, List.filter_filter]
  apply List.filter_congr
  intro e he
  have hrun : e.OfRun := ofRun_of_mem_accounts e he
  have hmono : e.toldAt v = true → e.toldAt v' = true := by
    unfold Event.toldAt
    cases e.level? with
    | none => exact id
    | some level => simpa using fun hl => Nat.le_trans hl h
  change e.toldAt v = (e.severity.keptAt v && e.toldAt v')
  rw [← hrun.toldAt_eq, Bool.eq_iff_iff, Bool.and_eq_true]
  exact ⟨fun hv => ⟨hv, hmono hv⟩, And.left⟩

/-- Errors are told whatever the verbosity is. -/
theorem filter_error_told :
    ((s.told next ls).filter fun e => e.severity = .error) =
      ((s.accounts next ls).filterMap Event.error?).map Event.raised := by
  rw [told_eq, List.filter_filter, List.map_filterMap, ← List.filterMap_eq_filter]
  congr 1
  funext e
  exact e.guard_severity_eq_error s.verbosity

/-- **Every error is told, once and in order.** The errors that were pending and those that are told
are those that the answers have and those that are pending behind the run. -/
theorem errors_told :
    s.raised.map Event.raised ++ ((s.told next ls).filter fun e => e.severity = .error) =
      ((s.answers next ls).flatMap Answer.errors ++ (s.behind next ls).1.raised).map
        Event.raised := by
  rw [filter_error_told, ← List.map_append, errors_accounts]

end Session

end LineCalc
