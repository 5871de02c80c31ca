import LineCalc.Proofs.CommandLine.Wish
import LineCalc.Proofs.Console.Matching
import LineCalc.Proofs.Session.Verbosity

/-!
# Asking for more trace output

How much the trace is asked to tell has an influence on the trace alone.

* `Finish.untraced` is the end of a run apart from the trace, and `Request.untraced_perform_silent`:
  it is the same without trace output.
* `tracing_changes_nothing` is about sessions at two verbosities, and about arguments that differ in
  how often they ask for more trace output.
-/

namespace LineCalc

/-- The end of a run apart from the trace. -/
def Finish.untraced (f : Finish) : Finish := { f with trace := [] }

theorem Finish.untraced_ofInput {r r' : Console × Console.Ending} (hend : r.2 = r'.2)
    (h : Console.Matches r.1 r'.1) : (ofInput r).untraced = (ofInput r').untraced := by
  simp only [ofInput, hend, h.output, h.failed]
  cases r'.2 <;> rfl

section Silent

variable (stdin : ByteArray) (file? : String → Option ByteArray)

/-- A run ends the same way without trace output. -/
theorem Options.untraced_run_silent (o : Options) :
    (o.silent.run stdin file?).untraced = (o.run stdin file?).untraced := by
  obtain ⟨verbosity, isFile, contents?⟩ := o
  have hinput : ∀ input interactive,
      (Finish.ofInput (runInput (.start 0) 0 input interactive)).untraced =
        (Finish.ofInput (runInput (.start verbosity) 0 input interactive)).untraced := by
    intro input interactive
    have hmatch : Session.Matches (.start 0) (.start verbosity) := ⟨rfl, rfl⟩
    obtain ⟨hend, hconsole⟩ := Console.runInput_matches hmatch 0 input interactive
    exact Finish.untraced_ofInput hend hconsole
  cases contents? with
  | none => exact hinput stdin true
  | some contents =>
    cases isFile with
    | false => exact hinput contents.toUTF8 false
    | true =>
      simp only [run, silent, if_true]
      cases (file? contents).bind String.fromUTF8? with
      | none => rfl
      | some script => exact hinput script.toUTF8 false

variable (texts : Request.Texts)

theorem Request.untraced_perform_silent (r : Request) :
    (r.silent.perform texts stdin file?).untraced = (r.perform texts stdin file?).untraced := by
  cases r with
  | run o => exact o.untraced_run_silent stdin file?
  | _ => rfl

/-- How often arguments ask for more trace output makes no difference to the end of the run. -/
theorem Request.untraced_perform_eq {args args' : List String}
    (h : Wish.others (Wish.ofArgs args) = Wish.others (Wish.ofArgs args')) :
    ((ofArgs args).perform texts stdin file?).untraced =
      ((ofArgs args').perform texts stdin file?).untraced := by
  calc ((ofArgs args).perform texts stdin file?).untraced
      = ((ofArgs args).silent.perform texts stdin file?).untraced :=
        (untraced_perform_silent stdin file? texts _).symm
    _ = ((ofArgs args').silent.perform texts stdin file?).untraced := by rw [ofArgs_silent h]
    _ = ((ofArgs args').perform texts stdin file?).untraced :=
        untraced_perform_silent stdin file? texts _

end Silent

/-- **Tracing never influences the calculation.** A run in two sessions that differ in their
verbosity only has the same answers and leads to the same variables and the same number for the next
node. The session with the smaller verbosity tells the same without the debug messages and the trace
messages that its verbosity does not reach, and either of them tells every error that is raised,
once and in order. For the whole program, however its texts about the arguments are worded: how
often the arguments ask for more trace output changes neither what is written nor the exit code. -/
theorem tracing_changes_nothing {v v' : Nat} (h : v ≤ v') (s : Session) (next : NodeId)
    (ls : List (String × Nat)) :
    let quiet := s.withVerbosity v
    let loud := s.withVerbosity v'
    (quiet.replies next ls = loud.replies next ls ∧
      (quiet.behind next ls).1.store = (loud.behind next ls).1.store ∧
      (quiet.behind next ls).2 = (loud.behind next ls).2 ∧
      quiet.told next ls = ((loud.told next ls).filter fun e => e.severity.keptAt v) ∧
      ∀ t ∈ [quiet, loud],
        t.raised.map Event.raised ++ ((t.told next ls).filter fun e => e.severity = .error) =
          ((t.answers next ls).flatMap Answer.errors ++ (t.behind next ls).1.raised).map
            Event.raised) ∧
    ∀ args args' texts stdin file?,
      Wish.others (Wish.ofArgs args) = Wish.others (Wish.ofArgs args') →
        ((Request.ofArgs args).perform texts stdin file?).output =
            ((Request.ofArgs args').perform texts stdin file?).output ∧
          ((Request.ofArgs args).perform texts stdin file?).exitCode =
            ((Request.ofArgs args').perform texts stdin file?).exitCode := by
  intro quiet loud
  have hmatch : Session.Matches quiet loud := s.withVerbosity_matches v v'
  refine ⟨⟨hmatch.replies_eq next ls, (hmatch.behind next ls).1.store, (hmatch.behind next ls).2,
    s.told_withVerbosity next ls h, fun t _ => t.errors_told next ls⟩, ?_⟩
  intro args args' texts stdin file? hothers
  have hfinish := Request.untraced_perform_eq stdin file? texts hothers
  have houtput := congrArg Finish.output hfinish
  have hcode := congrArg Finish.exitCode hfinish
  exact ⟨houtput, hcode⟩

/-- A line that fails in a session that tells everything and in one that tells nothing but
errors. -/
theorem tracing_changes_nothing_of_failing_line :
    let s := Session.start 1
    let quiet := s.withVerbosity 0
    let loud := s.withVerbosity 2
    let ls := [("x = 1 / 0", 1), ("x", 2)]
    let args := ["-vvf", "--verbose", "sums"]
    let args' := ["-f", "sums"]
    (0 ≤ 2 ∧ Wish.others (Wish.ofArgs args) = Wish.others (Wish.ofArgs args')) ∧
      quiet.replies 0 ls = loud.replies 0 ls ∧
      quiet.told 0 ls = ((loud.told 0 ls).filter fun e => e.severity.keptAt 0) ∧
      ∀ texts stdin file?, ((Request.ofArgs args).perform texts stdin file?).output =
          ((Request.ofArgs args').perform texts stdin file?).output ∧
        ((Request.ofArgs args).perform texts stdin file?).exitCode =
          ((Request.ofArgs args').perform texts stdin file?).exitCode := by
  intro s quiet loud ls args args'
  have hothers : Wish.others (Wish.ofArgs args) = Wish.others (Wish.ofArgs args') := by decide
  obtain ⟨⟨hreplies, -, -, htold, -⟩, hfinish⟩ := tracing_changes_nothing (by decide : 0 ≤ 2) s 0 ls
  exact ⟨⟨by decide, hothers⟩, hreplies, htold,
    fun texts stdin file? => hfinish args args' texts stdin file? hothers⟩

end LineCalc
