import LineCalc.Proofs.Console.Output
import LineCalc.Console

/-!
# Scripts and inputs

A script can be run for its result, or it can be the input of the console. The first way stops at
the first line that raises an error, the second shows the error and goes on. Both read the same
lines, one without and one with their line ends, and they agree on what the lines come to.

* `firstError?` is the first error in a list of answers, and `runScriptLines_eq` says that the
  result of a script is that error, or the last value.
* `find?_shown` and `getLast?_shown` find the first error and the last value in an output.
* `answers_unnumbered_eq`: both ways get the same answers, up to the numbers of nodes.
* `EndsWith` says what the last statement of a text is, and what its value is.
* `runScript_agrees_with_runInput` is the statement for every text.
-/

namespace LineCalc

/-- The first error in a list of answers. -/
def firstError? (as : List Answer) : Option Error := as.findSome? (·.errors.head?)

theorem firstError?_eq_none_iff {as : List Answer} :
    firstError? as = none ↔ Console.failures as = 0 := by
  simp [firstError?, Console.failures, List.countP_eq_zero, Answer.isOk, List.head?_eq_none_iff]

theorem errors_eq_nil_of_firstError? {as : List Answer} (h : firstError? as = none) {a : Answer}
    (ha : a ∈ as) : a.errors = [] :=
  List.head?_eq_none_iff.mp (List.findSome?_eq_none_iff.mp h a ha)

theorem firstError?_unnumbered (as : List Answer) :
    firstError? (as.map Answer.unnumbered) = (firstError? as).map Error.unnumbered := by
  unfold firstError?
  rw [List.findSome?_map, List.map_findSome?]
  congr 1
  funext a
  exact List.head?_map

/-- **The result of a script** is the first error that its lines raise, or else the last value. -/
theorem runScriptLines_eq (s : Session) (next : NodeId) (last : Option Binary64) (line : Nat)
    (ls : List String) :
    runScriptLines s next last line ls =
      match firstError? (s.answers next (ls.zipIdx line)) with
      | some e => .error e
      | none => .ok (((s.answers next (ls.zipIdx line)).getLast?.map Answer.value).or last) := by
  induction ls generalizing s next last line with
  | nil => rfl
  | cons l ls ih =>
    rw [List.zipIdx_cons, Session.answers_cons, runScriptLines]
    cases (s.runLine l line next).answer? with
    | none => exact ih _ _ _ _
    | some a =>
      obtain ⟨value, errors, echo⟩ := a
      cases errors with
      | cons e errors => rfl
      | nil =>
        dsimp only
        rw [ih]
        generalize (s.runLine l line next).session.answers _ _ = more
        have hfirst : firstError? ((some (Answer.mk value [] echo)).toList ++ more) =
            firstError? more := rfl
        rw [hfirst, List.getLast?_append]
        cases more.getLast? <;> rfl

namespace Console

/-! ## What an output shows -/

theorem find?_shown (as : List Answer) :
    (shown as).find? isErrorLine = (firstError? as).map fun e => "error: " ++ e.message := by
  induction as with
  | nil => rfl
  | cons a as ih =>
    have hcons : shown (a :: as) = a.shown ++ shown as := List.flatMap_cons
    rw [hcons, List.find?_append, ih]
    by_cases hok : a.isOk = true
    · have hnone : a.shown.find? isErrorLine = none := by
        refine List.find?_eq_none.mpr fun l hl => ?_
        rw [Answer.isErrorLine_of_mem_shown hl, hok]
        decide
      have hfirst : firstError? (a :: as) = firstError? as := by
        rw [firstError?, List.findSome?_cons, Answer.isOk_iff.mp hok]
        rfl
      rw [hnone, hfirst, Option.none_or]
    · obtain ⟨x, xs, hx⟩ := List.exists_cons_of_ne_nil (mt Answer.isOk_iff.mpr hok)
      have hfirst : firstError? (a :: as) = some x := by
        rw [firstError?, List.findSome?_cons, hx]
        rfl
      rw [Answer.shown_of_not_isOk hok, hx, List.map_cons,
        List.find?_cons_of_pos (isErrorLine_error _), hfirst]
      rfl

theorem getLast?_shown {as : List Answer} {a : Answer} (h : as.getLast? = some a)
    (hok : a.isOk = true) (he : a.echo = true) : (shown as).getLast? = some a.value.plain := by
  obtain ⟨before, rfl⟩ := List.getLast?_eq_some_iff.mp h
  rw [shown, List.flatMap_append, List.flatMap_singleton, Answer.shown_of_isOk hok, if_pos he]
  exact List.getLast?_concat

end Console

/-! ## The same answers -/

/-- The answers to the lines of a script. -/
def scriptAnswers (source : String) : List Answer :=
  (Session.start 0).answers 0 ((lines source).zipIdx 1)

/-- **The lines of a text have the same answers with and without their line ends**, up to the
numbers of nodes. -/
theorem answers_unnumbered_eq (source : String) (verbosity : Nat) (next : NodeId) :
    (scriptAnswers source).map Answer.unnumbered =
      ((Console.start (.start verbosity) next).answers (fullLines source)).map
        Answer.unnumbered := by
  have hreplies := (Session.level_start 0 verbosity).replies_eq (f := chompLine) tokenize_chomp
    ((fullLines source).zipIdx 1) 0 next
  have hmap : ∀ rs : List (Option Answer), (rs.filterMap id).map Answer.unnumbered =
      (rs.map (Option.map Answer.unnumbered)).filterMap id := by
    intro rs
    rw [List.map_filterMap, List.filterMap_map]
    rfl
  unfold scriptAnswers Session.answers Console.answers Console.replies
  rw [hmap, hmap, lines_eq_map_fullLines, List.zipIdx_map]
  exact congrArg (List.filterMap id) hreplies

theorem ofLine_of_firstError? {as : List Answer} (h : ∀ a ∈ as, ∀ x ∈ a.errors, x.OfLine)
    {e : Error} (he : firstError? as = some e) : e.OfLine := by
  obtain ⟨a, ha, hx⟩ := List.exists_of_findSome?_eq_some he
  exact h a ha e (List.mem_of_mem_head? hx)

section

variable {as bs : List Answer} (h : as.map Answer.unnumbered = bs.map Answer.unnumbered)

include h

/-- The first error is the same up to the number of its node, and so is its message. -/
theorem find?_shown_of_firstError? (ha : ∀ a ∈ as, ∀ x ∈ a.errors, x.OfLine) {e : Error}
    (he : firstError? as = some e) :
    0 < Console.failures bs ∧
      (Console.shown bs).find? isErrorLine = some ("error: " ++ e.message) := by
  have hfirst := firstError?_unnumbered bs
  rw [← h, firstError?_unnumbered, he, Option.map_some] at hfirst
  obtain ⟨f, hf, hef⟩ := Option.map_eq_some_iff.mp hfirst.symm
  constructor
  · refine Nat.pos_of_ne_zero fun hzero => ?_
    rw [firstError?_eq_none_iff.mpr hzero] at hf
    cases hf
  · rw [Console.find?_shown, hf, Option.map_some,
      (ofLine_of_firstError? ha he).message_eq hef.symm]

/-- Without an error in one list there is none in the other. -/
theorem failures_eq_zero_of_firstError? (he : firstError? as = none) :
    Console.failures bs = 0 := by
  have hfirst := firstError?_unnumbered bs
  rw [← h, firstError?_unnumbered, he, Option.map_none] at hfirst
  exact firstError?_eq_none_iff.mp (Option.map_eq_none_iff.mp hfirst.symm)

/-- The last value is the same. -/
theorem getLast?_shown_of_getLast? {a : Answer} (ha : as.getLast? = some a) (hok : a.errors = [])
    (he : a.echo = true) : (Console.shown bs).getLast? = some a.value.plain := by
  have hlast : (bs.map Answer.unnumbered).getLast? = some a.unnumbered := by
    rw [← h, List.getLast?_map, ha, Option.map_some]
  rw [List.getLast?_map] at hlast
  obtain ⟨b, hb, hba⟩ := Option.map_eq_some_iff.mp hlast
  simp only [Answer.unnumbered, Answer.mk.injEq, hok, List.map_nil, List.map_eq_nil_iff] at hba
  rw [← hba.1]
  exact Console.getLast?_shown hb (Answer.isOk_iff.mpr hba.2.1) (hba.2.2.trans he)

end

/-! ## The statement for every text -/

/-- The last statement of a text is `e`, and its value is `x`: behind it there are only blanks and
comments, and in the session behind the lines before it, it has that value and no error. -/
def EndsWith (source : String) (e : Expr) (x : Binary64) : Prop :=
  ∃ before l i after, (lines source).zipIdx 1 = before ++ (l, i) :: after ∧
    (∀ m ∈ after, Blank m.1.toList) ∧
    (readLine l i ((Session.start 0).behind 0 before).2).outcome = .ok (some e) ∧
    (((Session.start 0).behind 0 before).1.runLine l i
      ((Session.start 0).behind 0 before).2).answer? = some ⟨x, [], !e.isAssign⟩

theorem ofLine_of_mem_scriptAnswers {source : String} {a : Answer}
    (h : a ∈ scriptAnswers source) : ∀ x ∈ a.errors, x.OfLine :=
  Session.ofLine_of_mem_answers rfl h

/-- A script without answers has no statements. -/
theorem blank_of_scriptAnswers_eq_nil {source : String} (h : scriptAnswers source = []) :
    ∀ l ∈ lines source, Blank l.toList := by
  intro l hl
  rw [← List.zipIdx_map_fst 1 (lines source)] at hl
  obtain ⟨m, hm, rfl⟩ := List.mem_map.mp hl
  exact Session.answers_eq_nil_iff.mp h m hm

/-- The last answer to the lines of a script is that to its last statement. -/
theorem exists_endsWith {source : String} {a : Answer}
    (h : (scriptAnswers source).getLast? = some a) (hok : a.errors = []) :
    ∃ e, EndsWith source e a.value ∧ a.echo = !e.isAssign := by
  obtain ⟨before, l, i, after, hls, ha, hafter⟩ := Session.exists_of_getLast?_answers h
  obtain ⟨e, he, hecho⟩ := Session.exists_statement_of_answer? ha hok
  refine ⟨e, ⟨before, l, i, after, hls, hafter, he, ?_⟩, hecho⟩
  rw [ha, ← hecho, ← hok]

/-- **A script and an input of the same text agree.** The input is read to its end, and the number
of failed lines is the number of lines that write a line that shows an error. If the script has a
result, then no line of the input fails, and the result is the value of the last statement, which is
the last line of the output unless the statement is an assignment. If the script has an error, then
some line of the input fails, and the first line of the output that shows an error shows that
one. -/
theorem runScript_agrees_with_runInput (source : String) (verbosity : Nat) (next : NodeId) :
    let run := runInput (.start verbosity) next source.toUTF8 false
    let written := (Console.start (.start verbosity) next).transcript (fullLines source)
    run.2 = .done ∧ run.1.output = String.join written ∧
      run.1.failed = written.countP (fun text => (lines text).any isErrorLine) ∧
      match runScript source with
      | .ok none => run.1.failed = 0 ∧ ∀ l ∈ lines source, Blank l.toList
      | .ok (some x) => run.1.failed = 0 ∧ ∃ e, EndsWith source e x ∧
          (e.isAssign = false → (lines run.1.output).getLast? = some x.plain)
      | .error e => 0 < run.1.failed ∧
          (lines run.1.output).find? isErrorLine = some ("error: " ++ e.message) := by
  intro run written
  obtain ⟨hdone, hfailed, houtput⟩ :=
    Console.runInput_statements (.start verbosity) next source
  have hsame := answers_unnumbered_eq source verbosity next
  have hofLine : ∀ a ∈ (Console.start (.start verbosity) next).answers (fullLines source),
      ∀ x ∈ a.errors, x.OfLine := fun _ ha => Console.ofLine_of_mem_answers rfl ha
  have hcount := Console.countP_transcript (c := .start (.start verbosity) next) rfl
    (fullLines source)
  have hlines : lines run.1.output = _ := houtput ▸ Console.lines_unlines_shown hofLine
  refine ⟨hdone, houtput.trans (Console.join_transcript _ _).symm, hfailed.trans hcount.symm, ?_⟩
  have hresult : runScript source = _ := runScriptLines_eq (.start 0) 0 none 1 (lines source)
  have hscript : (Session.start 0).answers 0 ((lines source).zipIdx 1) = scriptAnswers source := rfl
  rw [hresult, hscript, hlines]
  cases hfirst : firstError? (scriptAnswers source) with
  | some e =>
    obtain ⟨hpos, hfind⟩ := find?_shown_of_firstError? hsame
      (fun _ ha => ofLine_of_mem_scriptAnswers ha) hfirst
    exact ⟨hfailed ▸ hpos, hfind⟩
  | none =>
    have hzero := hfailed.trans (failures_eq_zero_of_firstError? hsame hfirst)
    cases hlast : (scriptAnswers source).getLast? with
    | none =>
      exact ⟨hzero, blank_of_scriptAnswers_eq_nil (List.getLast?_eq_none_iff.mp hlast)⟩
    | some a =>
      have hok := errors_eq_nil_of_firstError? hfirst (List.mem_of_getLast? hlast)
      obtain ⟨e, he, hecho⟩ := exists_endsWith hlast hok
      refine ⟨hzero, e, he, fun hassign => ?_⟩
      rw [hassign] at hecho
      exact getLast?_shown_of_getLast? hsame hlast hok hecho

/-- The console goes on behind a line that fails. -/
example : (runInput (.start 0) 0 "x = 2\r\nx / 0\n// note\nx * 3".toUTF8 false).1.output =
    "error: Division by zero.\n6\n" := by
  decide +kernel

end LineCalc
