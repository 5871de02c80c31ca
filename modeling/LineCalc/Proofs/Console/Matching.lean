import LineCalc.Proofs.Console.Command
import LineCalc.Proofs.Console.Output
import LineCalc.Proofs.Session.Matching

/-!
# Consoles that match

What an input writes depends on the session as far as lines depend on it: on its variables and the
errors that are pending, and not on what the trace tells.

* `Console.Matches` says that two consoles differ in nothing but the traces of their sessions.
* `Console.Matches.step` and `Console.Matches.readLines`: they go on that way, and the reading ends
  in the same place.
* `Console.runInput_matches` is about whole inputs.
-/

namespace LineCalc

namespace Console

/-- Two consoles that differ in nothing but the traces of their sessions. -/
structure Matches (c c' : Console) : Prop where
  session : Session.Matches c.session c'.session
  next : c.next = c'.next
  line : c.line = c'.line
  failed : c.failed = c'.failed
  output : c.output = c'.output

namespace Matches

variable {c c' : Console}

theorem write (h : Matches c c') (text : String) : Matches (c.write text) (c'.write text) :=
  { h with output := congrArg (· ++ text) h.output }

theorem prompt (h : Matches c c') (interactive : Bool) :
    Matches (c.prompt interactive) (c'.prompt interactive) := by
  cases interactive with
  | false => exact h
  | true => exact h.write "calc> "

/-- A statement does the same to consoles that match. -/
theorem step_statement (h : Matches c c') (l : String) :
    Matches (c.step false l) (c'.step false l) := by
  obtain ⟨ha, hs⟩ := h.session.runLine l (c'.line + 1) c'.next
  rw [Console.step_statement, Console.step_statement, h.line, h.next, ha, Session.next_runLine,
    Session.next_runLine, h.failed, h.output]
  exact ⟨hs, rfl, rfl, rfl, rfl⟩

/-- **A line does the same to consoles that match.** -/
theorem step (h : Matches c c') (interactive : Bool) (l : String) :
    Matches (c.step interactive l) (c'.step interactive l) := by
  cases hc : command? interactive l with
  | none =>
    rw [step_of_not_command hc, step_of_not_command hc]
    exact h.step_statement l
  | some command =>
    rw [step_command hc, step_command hc, h.line, h.next, h.failed, h.output, h.session.store]
    exact ⟨h.session, rfl, rfl, rfl, rfl⟩

/-- The reading of an input ends in the same place, with consoles that match. -/
theorem readLines (h : Matches c c') (interactive : Bool) (bytes : List (List UInt8)) :
    (Console.readLines interactive bytes c).2 = (Console.readLines interactive bytes c').2 ∧
      Matches (Console.readLines interactive bytes c).1
        (Console.readLines interactive bytes c').1 := by
  induction bytes generalizing c c' with
  | nil => exact ⟨rfl, h.prompt interactive⟩
  | cons line bytes ih =>
    have hp := h.prompt interactive
    simp only [Console.readLines, advance]
    cases decodeLine line with
    | none => exact ⟨rfl, hp⟩
    | some l =>
      have hl := hp.step interactive l
      by_cases hq : command? interactive l = some .quit
      · simp only [if_pos hq]
        exact ⟨trivial, hl⟩
      · simp only [if_neg hq]
        exact ih hl

end Matches

/-- **An input writes the same in sessions that match**, as many of its lines fail, and its reading
ends in the same place. -/
theorem runInput_matches {s s' : Session} (h : Session.Matches s s') (next : NodeId)
    (input : ByteArray) (interactive : Bool) :
    (runInput s next input interactive).2 = (runInput s' next input interactive).2 ∧
      Matches (runInput s next input interactive).1 (runInput s' next input interactive).1 := by
  have hstart : Matches (start s next) (start s' next) := ⟨h, rfl, rfl, rfl, rfl⟩
  cases interactive with
  | false => exact hstart.readLines false _
  | true => exact Matches.readLines (hstart.write _) true _

end Console

end LineCalc
