import LineCalc.CommandLine
import LineCalc.Proofs.Console.Command
import LineCalc.Proofs.Console.Interruption
import LineCalc.Proofs.Console.Output

/-!
# What the exit code tells

A run ends with 0, 1 or 2, by what became of its input.

* `Console.statementAnswers` are the answers to the statements among the lines that are handled.
  `Console.failed_readLines` says that the failed lines are counted by these answers.
* `Options.input?` is what a run reads. `Options.LacksScript`, `Options.MeetsBadLine` and
  `Options.StatementFails` say what may go wrong, and `Options.exitCode_run` says what each of these
  comes to.
* `exitCode_tells_outcome` is about arguments. A script that cannot be read ends the run with 1,
  although input that cannot be read otherwise ends it with 2:
  `not_exitCode_of_unreadable_script`.
-/

namespace LineCalc

namespace Console

/-! ## Statements of an input -/

/-- The answer to a line as a statement of its own; a command has none. -/
def statementAnswer? (interactive : Bool) (c : Console) (l : String) : Option Answer :=
  if (command? interactive l).isSome then none
  else (c.session.runLine l (c.line + 1) c.next).answer?

/-- The answers to the statements among lines, each behind the lines before it. -/
def statementAnswers (interactive : Bool) (c : Console) : List String → List Answer
  | [] => []
  | l :: ls =>
    (c.statementAnswer? interactive l).toList ++
      statementAnswers interactive ((c.prompt interactive).step interactive l) ls

variable {interactive : Bool}

/-- A line fails if it is a statement whose answer has errors. -/
theorem failed_step_prompt (c : Console) (interactive : Bool) (l : String) :
    ((c.prompt interactive).step interactive l).failed =
      c.failed + failures (c.statementAnswer? interactive l).toList := by
  rw [prompt_eq, statementAnswer?]
  cases hc : command? interactive l with
  | some command =>
    rw [step_command hc]
    rfl
  | none =>
    rw [step_of_not_command hc, step_statement]
    rfl

/-- **The failed lines are the statements that are handled and have errors.** -/
theorem failed_readLines (pieces : List (List UInt8)) (c : Console) :
    (readLines interactive pieces c).1.failed =
      c.failed + failures (c.statementAnswers interactive (handled interactive pieces)) := by
  induction pieces generalizing c with
  | nil =>
    show (c.prompt interactive).failed = c.failed
    rw [prompt_eq]
  | cons bytes pieces ih =>
    cases hd : decodeLine bytes with
    | none =>
      rw [readLines_cons_of_none hd, handled_cons_of_none hd]
      show (c.prompt interactive).failed = c.failed
      rw [prompt_eq]
    | some l =>
      by_cases hq : command? interactive l = some .quit
      · rw [readLines_cons_of_quit hd hq, handled_cons_of_quit hd hq, failed_step_prompt,
          statementAnswer?, hq]
        rfl
      · rw [readLines_cons_of_more hd hq, handled_cons_of_more hd hq, ih, failed_step_prompt,
          statementAnswers, failures, failures, failures, List.countP_append, Nat.add_assoc]

end Console

/-! ## Runs -/

/-- Input that is no text decides the exit code before the failed lines do. -/
theorem Finish.exitCode_ofInput (r : Console × Console.Ending) :
    (ofInput r).exitCode = if r.2 = .notText then 2 else if r.1.failed = 0 then 0 else 1 := by
  obtain ⟨c, ending⟩ := r
  cases ending <;> rfl

namespace Options

/-- What a run reads, and whether it is a conversation; nothing if the script is not to be had as
text. -/
def input? (o : Options) (stdin : ByteArray) (file? : String → Option ByteArray) :
    Option (ByteArray × Bool) :=
  match o.contents? with
  | none => some (stdin, true)
  | some contents =>
    if o.isFile then ((file? contents).bind String.fromUTF8?).map fun script =>
      (script.toUTF8, false)
    else some (contents.toUTF8, false)

/-- The console in front of the first line of an input. -/
def console (o : Options) (interactive : Bool) : Console :=
  let c := Console.start (.start o.verbosity) 0
  if interactive then c.greet else c

variable (o : Options) (stdin : ByteArray) (file? : String → Option ByteArray)

/-- The run is of a script that is not there or is no text. -/
def LacksScript : Prop :=
  ∃ path, o.isFile = true ∧ o.contents? = some path ∧ (file? path).bind String.fromUTF8? = none

/-- The run is a conversation that comes to a line that is not well-formed UTF-8. -/
def MeetsBadLine : Prop := o.contents? = none ∧ Console.ReachesBadLine true (byteLines stdin)

/-- The run cannot read its input: there is no script, or it comes to a line that is no text. -/
def ReadingFails : Prop := o.LacksScript file? ∨ o.MeetsBadLine stdin

/-- The run has a statement that raises an error. -/
def StatementFails : Prop :=
  ∃ input interactive, o.input? stdin file? = some (input, interactive) ∧
    ∃ a ∈ (o.console interactive).statementAnswers interactive
        (Console.handled interactive (byteLines input)), a.errors ≠ []

variable {o stdin file?}

/-! ### Without a script -/

theorem input?_eq_none_iff : o.input? stdin file? = none ↔ o.LacksScript file? := by
  obtain ⟨verbosity, isFile, contents?⟩ := o
  unfold LacksScript
  cases contents? with
  | none => simp [input?]
  | some contents => cases isFile <;> simp [input?]

theorem run_of_lacksScript (h : o.LacksScript file?) :
    ∃ path, o.run stdin file? = .ofMissing path := by
  obtain ⟨path, hfile, hcontents, hscript⟩ := h
  refine ⟨path, ?_⟩
  simp only [run, hcontents, hfile, if_true, hscript]

theorem LacksScript.not_meetsBadLine (h : o.LacksScript file?) : ¬ o.MeetsBadLine stdin := by
  obtain ⟨path, -, hcontents, -⟩ := h
  rintro ⟨hnone, -⟩
  cases hcontents.symm.trans hnone

/-! ### With an input -/

section Input

variable {input : ByteArray} {interactive : Bool}
  (h : o.input? stdin file? = some (input, interactive))

include h

/-- An input is the standard input of a conversation or a text. -/
theorem eq_of_input? :
    (o.contents? = none ∧ input = stdin ∧ interactive = true) ∨
      (o.contents? ≠ none ∧ (∃ text : String, input = text.toUTF8) ∧ interactive = false) := by
  obtain ⟨verbosity, isFile, contents?⟩ := o
  cases contents? with
  | none =>
    cases h
    exact .inl ⟨rfl, rfl, rfl⟩
  | some contents =>
    cases isFile with
    | false =>
      cases h
      exact .inr ⟨Option.some_ne_none _, ⟨contents, rfl⟩, rfl⟩
    | true =>
      obtain ⟨script, -, hinput⟩ := Option.map_eq_some_iff.mp h
      cases hinput
      exact .inr ⟨Option.some_ne_none _, ⟨script, rfl⟩, rfl⟩

theorem run_of_input :
    o.run stdin file? =
      .ofInput (Console.readLines interactive (byteLines input) (o.console interactive)) := by
  obtain ⟨verbosity, isFile, contents?⟩ := o
  cases contents? with
  | none =>
    cases h
    rfl
  | some contents =>
    cases isFile with
    | false =>
      cases h
      rfl
    | true =>
      obtain ⟨script, hscript, hinput⟩ := Option.map_eq_some_iff.mp h
      cases hinput
      simp only [run, if_true, hscript]
      rfl

/-- Only a conversation can come to a line that is no text. -/
theorem meetsBadLine_iff :
    o.MeetsBadLine stdin ↔
      (Console.readLines interactive (byteLines input) (o.console interactive)).2 = .notText := by
  rw [(Console.readLines_textBefore interactive (byteLines input) _).2.2]
  unfold MeetsBadLine
  rcases eq_of_input? h with ⟨hnone, rfl, rfl⟩ | ⟨hsome, ⟨text, rfl⟩, rfl⟩
  · exact and_iff_right hnone
  · exact ⟨fun hbad => absurd hbad.1 hsome, fun hbad => absurd (textBefore_toUTF8 text) hbad.1⟩

theorem statementFails_iff :
    o.StatementFails stdin file? ↔
      (Console.readLines interactive (byteLines input) (o.console interactive)).1.failed ≠ 0 := by
  have hstart : (o.console interactive).failed = 0 := by cases interactive <;> rfl
  rw [Console.failed_readLines, hstart, Nat.zero_add, ← Nat.pos_iff_ne_zero, Console.failures,
    List.countP_pos_iff]
  constructor
  · rintro ⟨input', interactive', hinput, a, ha, herrors⟩
    cases h.symm.trans hinput
    exact ⟨a, ha, by rwa [Bool.not_eq_true', ← Bool.not_eq_true, Answer.isOk_iff]⟩
  · rintro ⟨a, ha, hfails⟩
    rw [Bool.not_eq_true', ← Bool.not_eq_true, Answer.isOk_iff] at hfails
    exact ⟨input, interactive, h, a, ha, hfails⟩

end Input

/-- **The exit code of a run** is 2 if it comes to a line that is no text, 1 if there is no script
or, with no such line, a statement raises an error, and 0 if nothing of this happens. -/
theorem exitCode_run (o : Options) (stdin : ByteArray) (file? : String → Option ByteArray) :
    let code := (o.run stdin file?).exitCode
    (code = 2 ↔ o.MeetsBadLine stdin) ∧
      (code = 1 ↔ o.LacksScript file? ∨ ¬ o.MeetsBadLine stdin ∧ o.StatementFails stdin file?) ∧
      (code = 0 ↔ ¬ o.ReadingFails stdin file? ∧ ¬ o.StatementFails stdin file?) := by
  intro code
  unfold ReadingFails
  cases h : o.input? stdin file? with
  | none =>
    have hlacks := input?_eq_none_iff.mp h
    obtain ⟨path, hrun⟩ := run_of_lacksScript hlacks
    have hcode : code = 1 := congrArg Finish.exitCode hrun
    have hbad : ¬ o.MeetsBadLine stdin := hlacks.not_meetsBadLine
    simp [hcode, hbad, hlacks]
  | some i =>
    obtain ⟨input, interactive⟩ := i
    have hlacks : ¬ o.LacksScript file? := by
      rw [← input?_eq_none_iff, h]
      exact Option.some_ne_none _
    have hcode : code = _ := (congrArg Finish.exitCode (run_of_input h)).trans
      (Finish.exitCode_ofInput _)
    rw [hcode, meetsBadLine_iff h, statementFails_iff h]
    split
    · simp_all
    · split <;> simp_all

end Options

/-- **The exit code tells what happened.** For all arguments, every standard input and all files: a
run ends with 2 exactly if it is a conversation that comes to a line that is not well-formed UTF-8.
It ends with 1 exactly if it is of a script that cannot be read as text, or if it comes to no such
line and a statement that it handled raised an error. It ends with 0 exactly if it could read its
input and no statement raised an error. Help and the version end with 0, and arguments that cannot
be understood with 2. -/
theorem exitCode_tells_outcome (args : List String) (texts : Request.Texts) (stdin : ByteArray)
    (file? : String → Option ByteArray) :
    let code := ((Request.ofArgs args).perform texts stdin file?).exitCode
    match Request.ofArgs args with
    | .run o =>
      (code = 2 ↔ o.MeetsBadLine stdin) ∧
        (code = 1 ↔ o.LacksScript file? ∨ ¬ o.MeetsBadLine stdin ∧ o.StatementFails stdin file?) ∧
        (code = 0 ↔ ¬ o.ReadingFails stdin file? ∧ ¬ o.StatementFails stdin file?)
    | .help | .version => code = 0
    | .misuse => code = 2 := by
  intro code
  cases h : Request.ofArgs args with
  | run o =>
    have hcode : code = (o.run stdin file?).exitCode := by
      show ((Request.ofArgs args).perform texts stdin file?).exitCode = _
      rw [h]
      rfl
    rw [hcode]
    exact o.exitCode_run stdin file?
  | _ =>
    show ((Request.ofArgs args).perform texts stdin file?).exitCode = _
    rw [h]
    rfl

/-- A script that is no text ends the run with 1, so 2 does not stand for every failure to read. -/
theorem not_exitCode_of_unreadable_script :
    ¬ ∀ args texts stdin file? o, Request.ofArgs args = .run o →
      (((Request.ofArgs args).perform texts stdin file?).exitCode = 2 ↔
        o.ReadingFails stdin file?) := by
  intro h
  have hargs : Request.ofArgs ["-f", "sums"] = .run ⟨0, true, some "sums"⟩ := by decide
  have hfails := h ["-f", "sums"] ⟨"", []⟩ ⟨#[]⟩ (fun _ => some ⟨#[0xff]⟩) _ hargs
  have hcode := hfails.mpr (.inl ⟨"sums", rfl, rfl, by decide⟩)
  rw [hargs] at hcode
  revert hcode
  decide

end LineCalc
