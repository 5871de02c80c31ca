import LineCalc.Proofs.Console.Command
import LineCalc.Proofs.Console.Interruption
import LineCalc.Proofs.Console.Script

/-!
# Syntax errors carry the number of their line

A syntax error is found on the line that is read, wherever in the reading it arises. The lines of an
input are counted from one, blank lines, comments and commands among them, so the number in a
message is the position of the line that is wrong.

* `line_of_readLine`: every error of reading a line carries the number that was given for the line.
* `Response` is what a line of an input is answered with, and `Console.output_readLines` says that
  the output of an input is put together from the responses to the lines that are handled.
* `Console.exists_getElem?_responses` finds the console that a response is given by, with the number
  of lines in front of it.
* `exists_of_runScript_error`: a syntax error of a script is found on its first line that fails.
* `syntaxErrors_carry_line` is about lines, inputs and scripts.
-/

namespace LineCalc

/-! ## Reading a line -/

section

variable {source : String} {line : Nat} {next : NodeId} {x : SyntaxError}

/-- Every lexeme of a text stands on the line of the text. -/
theorem line_of_tokenize {ts : List Lexeme} (h : tokenize source line = .ok ts) :
    ∀ t ∈ ts, t.line = line := by
  obtain ⟨us, -, rfl⟩ := tokenizeChars_eq_ok_iff.mp h
  intro t ht
  obtain ⟨u, -, rfl⟩ := List.mem_map.mp ht
  rfl

theorem Fails.line_eq {cs : List Char} (h : Fails line cs x) : x.line = line := by
  induction h with
  | unknown | outOfRange => rfl
  | later _ _ _ ih => exact ih

/-- An error about lexemes of one line carries that line. -/
theorem SyntaxError.About.line_eq {ts : List Lexeme} (h : x.About ts line)
    (hts : ∀ t ∈ ts, t.line = line) : x.line = line := by
  cases x with
  | unexpectedToken _ l | unclosed l | trailing _ l =>
    obtain ⟨t, ht, -, rfl⟩ := h
    exact hts t ht
  | tooDeep l =>
    obtain ⟨t, ht, rfl⟩ := h
    exact hts t ht
  | unexpectedEnd l => exact h
  | outOfRange => exact h.elim

/-- **Every error of reading a line carries the number of the line.** -/
theorem line_of_readLine (h : (readLine source line next).outcome = .error x) : x.line = line := by
  unfold readLine at h
  split at h
  · rename_i x' hx
    cases h
    exact (tokenizeChars_eq_error_iff.mp hx).line_eq
  · rename_i ts hts
    exact (about_of_readLexemes h).line_eq (line_of_tokenize hts)

end

/-! ## Messages -/

/-- The announcement of a message may be put before it as a whole or before its first part. The
parts are variables here, because rewriting does not get past literal texts in good time. -/
theorem append_announcement (a b c d e : String) :
    a ++ (b ++ c ++ d ++ e) = a ++ b ++ c ++ d ++ e := by
  simp only [String.append_assoc]

theorem Error.message_parsing (x : SyntaxError) :
    (parsing x).message =
      "syntax error: Error on line " ++ toString x.line ++ ": " ++ x.reason := by
  have hwords : "syntax error: " ++ "Error on line " = "syntax error: Error on line " := by decide
  rw [← hwords]
  exact append_announcement _ _ _ _ _

theorem Console.errorLine_parsing (x : SyntaxError) :
    errorLine (.parsing x) =
      "error: syntax error: Error on line " ++ toString x.line ++ ": " ++ x.reason ++ "\n" := by
  have hwords : "error: " ++ "syntax error: Error on line " =
      "error: syntax error: Error on line " := by decide
  rw [← hwords, errorLine, Error.message_parsing]
  exact congrArg (· ++ "\n") (append_announcement _ _ _ _ _)

/-! ## Responses -/

/-- What a line of an input is answered with. -/
inductive Response where
  /-- A text, which may be empty. -/
  | tells (text : String)
  /-- Errors in place of a text. -/
  | fails (errors : List Error)
  deriving DecidableEq

/-- What is written for a response. Every error is a line of its own. -/
def Response.written : Response → String
  | tells text => text
  | fails errors => String.join (errors.map Console.errorLine)

/-- The response to a line that is shown in some form. -/
def LineReply.response (form : Expr → String) (reply : LineReply) : Response :=
  match reply.outcome with
  | .ok none => .tells ""
  | .ok (some e) => .tells (form e)
  | .error x => .fails [.parsing x]

/-- The response to a command. -/
def Command.response (store : Store) (line : Nat) (next : NodeId) : Command → Response
  | help => .tells overview
  | quit => .tells ""
  | .store => .tells store.listing
  | listing source => (readLine source line next).response Expr.listing
  | graph source => (readLine source line next).response Expr.graph

/-- The response that an answer is shown as. -/
def Answer.response (a : Answer) : Response :=
  if a.isOk then .tells (if a.echo then a.value.plain ++ "\n" else "") else .fails a.errors

theorem LineReply.written_response (form : Expr → String) (reply : LineReply) :
    (reply.response form).written = reply.shownAs form := by
  unfold response shownAs
  cases reply.outcome with
  | error x =>
    exact (String.join_cons ..).trans
      ((congrArg (_ ++ ·) String.join_nil).trans String.append_empty)
  | ok statement? => cases statement? <;> rfl

theorem Command.written_response (store : Store) (line : Nat) (next : NodeId) (command : Command) :
    (command.response store line next).written = command.reply store line next := by
  cases command with
  | listing | graph => exact LineReply.written_response _ _
  | _ => rfl

theorem Answer.written_response (a : Answer) : a.response.written = unlines a.shown := by
  unfold response
  by_cases hok : a.isOk = true
  · rw [if_pos hok, shown_of_isOk hok]
    cases a.echo with
    | true => exact (unlines_singleton _).symm
    | false => exact unlines_nil.symm
  · rw [if_neg hok, shown_of_not_isOk hok, unlines, List.map_map]
    rfl

namespace Console

variable {interactive : Bool}

/-- The response to the next line. -/
def response (interactive : Bool) (c : Console) (l : String) : Response :=
  match command? interactive l with
  | some command => command.response c.session.store (c.line + 1) c.next
  | none =>
    match (c.session.runLine l (c.line + 1) c.next).answer? with
    | none => .tells ""
    | some a => a.response

/-- A line writes its response. -/
theorem output_step (c : Console) (l : String) :
    (c.step interactive l).output = c.output ++ (c.response interactive l).written := by
  unfold response
  cases hc : command? interactive l with
  | some command =>
    rw [step_command hc]
    exact congrArg (c.output ++ ·) (command.written_response _ _ _).symm
  | none =>
    rw [step_of_not_command hc, step_statement]
    refine congrArg (c.output ++ ·) ?_
    cases (c.session.runLine l (c.line + 1) c.next).answer? with
    | none => exact unlines_nil
    | some a => rw [Option.toList_some, shown, List.flatMap_singleton, ← a.written_response]

/-- The responses to lines, each given by the console behind the lines before it. -/
def responses (interactive : Bool) (c : Console) : List String → List Response
  | [] => []
  | l :: ls =>
    c.response interactive l ::
      responses interactive ((c.prompt interactive).step interactive l) ls

/-- What is written in front of each line of an input. -/
def promptText (interactive : Bool) : String := if interactive then "calc> " else ""

theorem output_prompt (c : Console) :
    (c.prompt interactive).output = c.output ++ promptText interactive := by
  cases interactive with
  | true => rfl
  | false => exact String.append_empty.symm

theorem response_prompt (c : Console) (l : String) :
    (c.prompt interactive).response interactive l = c.response interactive l := by
  rw [prompt_eq]
  rfl

/-- **The output of an input** are the responses to the lines that are handled, each behind a
prompt, and a prompt in front of where the reading ends. -/
theorem output_readLines (pieces : List (List UInt8)) (c : Console) :
    (readLines interactive pieces c).1.output =
      c.output ++
        String.join ((c.responses interactive (handled interactive pieces)).map
          fun r => promptText interactive ++ r.written) ++
        promptText interactive := by
  induction pieces generalizing c with
  | nil => exact (output_prompt c).trans (by simp [handled, textBefore, responses])
  | cons bytes pieces ih =>
    cases hd : decodeLine bytes with
    | none =>
      rw [readLines_cons_of_none hd, handled_cons_of_none hd]
      exact (output_prompt c).trans (by simp [responses])
    | some l =>
      by_cases hq : command? interactive l = some .quit
      · rw [readLines_cons_of_quit hd hq, handled_cons_of_quit hd hq, output_step, response, hq]
        exact String.append_empty.trans ((output_prompt c).trans (by simp [responses]))
      · rw [readLines_cons_of_more hd hq, handled_cons_of_more hd hq, ih, output_step,
          output_prompt, response_prompt, responses, List.map_cons, String.join_cons]
        simp only [String.append_assoc]

end Console

/-! ## Errors that lines raise -/

namespace Session

variable {s : Session} {source : String} {line : Nat} {next : NodeId}

/-- Evaluation raises errors of evaluation only. -/
theorem exists_raised_evaluate (s : Session) (e : Expr) :
    ∃ errors : List EvalError, (s.evaluate e).2.raised = s.raised ++ errors.map .evaluation := by
  by_cases hp : s.raised = []
  · exact ⟨_, (evaluate_yields hp e).raised⟩
  · exact ⟨_, (evaluate_of_pending hp e).raised⟩

/-- A syntax error of an answer was pending in front of the line, or the line does not read. -/
theorem mem_errors_runLine {a : Answer} {x : SyntaxError}
    (h : (s.runLine source line next).answer? = some a) (hx : .parsing x ∈ a.errors) :
    .parsing x ∈ s.raised ∨ (readLine source line next).outcome = .error x := by
  cases ho : (readLine source line next).outcome with
  | error y =>
    rw [(runLine_of_error ho).1] at h
    cases h
    rcases List.mem_append.mp hx with hx | hx
    · exact Or.inl hx
    · cases List.mem_singleton.mp hx
      exact Or.inr rfl
  | ok statement? =>
    cases statement? with
    | none =>
      rw [(runLine_of_blank ho).1] at h
      cases h
    | some e =>
      rw [(runLine_of_statement ho).1] at h
      cases h
      obtain ⟨errors, he⟩ := exists_raised_evaluate (s.declareTargets e) e
      simp only [he, raised_declareTargets, List.mem_append, List.mem_map] at hx
      rcases hx with hx | ⟨y, -, hy⟩
      · exact Or.inl hx
      · cases hy

/-- Behind a line nothing is pending that was not pending in front of it. -/
theorem raised_runLine_subset (s : Session) (source : String) (line : Nat) (next : NodeId) :
    (s.runLine source line next).session.raised ⊆ s.raised := by
  cases ho : (readLine source line next).outcome with
  | error y =>
    rw [(runLine_of_error ho).2]
    exact List.nil_subset _
  | ok statement? =>
    cases statement? with
    | none =>
      rw [(runLine_of_blank ho).2]
      exact List.Subset.refl _
    | some e =>
      rw [(runLine_of_statement ho).2]
      exact List.nil_subset _

end Session

namespace Console

variable {interactive : Bool}

/-- A syntax error of a response was pending in front of the line, or carries its number. -/
theorem line_of_response {c : Console} {l : String} {errors : List Error} {x : SyntaxError}
    (h : c.response interactive l = .fails errors) (hx : .parsing x ∈ errors) :
    .parsing x ∈ c.session.raised ∨ x.line = c.line + 1 := by
  have hshown : ∀ (form : Expr → String) (source : String),
      (readLine source (c.line + 1) c.next).response form = .fails errors →
        x.line = c.line + 1 := by
    intro form source hr
    unfold LineReply.response at hr
    split at hr
    · cases hr
    · cases hr
    · rename_i y hy
      cases hr
      cases List.mem_singleton.mp hx
      exact line_of_readLine hy
  unfold response at h
  split at h
  · rename_i command _
    cases command with
    | listing source | graph source => exact Or.inr (hshown _ source h)
    | help | quit | store => cases h
  · split at h
    · cases h
    · rename_i a ha
      unfold Answer.response at h
      split at h
      · cases h
      · cases h
        exact (Session.mem_errors_runLine ha hx).imp_right line_of_readLine

/-- Behind a line nothing is pending that was not pending in front of it. -/
theorem raised_step_subset (c : Console) (l : String) :
    ((c.prompt interactive).step interactive l).session.raised ⊆ c.session.raised := by
  rw [prompt_eq]
  cases hc : command? interactive l with
  | some command =>
    rw [step_command hc]
    exact List.Subset.refl _
  | none =>
    rw [step_of_not_command hc, step_statement]
    exact Session.raised_runLine_subset _ _ _ _

theorem line_step (c : Console) (l : String) :
    ((c.prompt interactive).step interactive l).line = c.line + 1 := by
  rw [prompt_eq]
  cases hc : command? interactive l with
  | some command => rw [step_command hc]
  | none => rw [step_of_not_command hc, step_statement]

/-- **The response to a line of an input** is given by a console that has counted the lines in front
of it, and has nothing pending that was not pending at first. -/
theorem exists_getElem?_responses {ls : List String} {i : Nat} {l : String} (hl : ls[i]? = some l)
    (c : Console) :
    ∃ d : Console, d.line = c.line + i ∧ d.session.raised ⊆ c.session.raised ∧
      (c.responses interactive ls)[i]? = some (d.response interactive l) := by
  induction ls generalizing c i with
  | nil => cases hl
  | cons first ls ih =>
    cases i with
    | zero =>
      cases hl
      exact ⟨c, rfl, List.Subset.refl _, rfl⟩
    | succ i =>
      obtain ⟨d, hline, hraised, hd⟩ := ih hl ((c.prompt interactive).step interactive first)
      refine ⟨d, ?_, fun _ hx => raised_step_subset c first (hraised hx), hd⟩
      rw [hline, line_step, Nat.add_assoc, Nat.add_comm 1]

/-- A line that is handled is the line of the input at the same position. -/
theorem getElem?_of_handled {pieces : List (List UInt8)} {i : Nat} {l : String}
    (h : (handled interactive pieces)[i]? = some l) :
    pieces[i]?.bind decodeLine = some l := by
  induction pieces generalizing i with
  | nil => cases h
  | cons bytes pieces ih =>
    cases hd : decodeLine bytes with
    | none =>
      rw [handled_cons_of_none hd] at h
      cases h
    | some first =>
      by_cases hq : command? interactive first = some .quit
      · rw [handled_cons_of_quit hd hq] at h
        cases h
      · rw [handled_cons_of_more hd hq] at h
        cases i with
        | zero => exact hd.trans h
        | succ i => exact ih h

end Console

/-! ## Scripts -/

theorem firstError?_append (as bs : List Answer) :
    firstError? (as ++ bs) = (firstError? as).or (firstError? bs) := List.findSome?_append

/-- The first error of a run is raised by a line behind lines that raise none. -/
theorem exists_of_firstError?_answers {s : Session} (hs : s.raised = []) {next : NodeId}
    {ls : List (String × Nat)} {e : Error} (h : firstError? (s.answers next ls) = some e) :
    ∃ before source line after, ls = before ++ (source, line) :: after ∧
      firstError? (s.answers next before) = none ∧
      ∃ (t : Session) (n : NodeId) (a : Answer), t.raised = [] ∧
        (t.runLine source line n).answer? = some a ∧ e ∈ a.errors := by
  induction ls generalizing s next with
  | nil => cases h
  | cons l ls ih =>
    obtain ⟨source, line⟩ := l
    rw [Session.answers_cons, firstError?_append, Option.or_eq_some_iff] at h
    rcases h with h | ⟨hnone, h⟩
    · obtain ⟨a, ha, he⟩ := List.exists_of_findSome?_eq_some h
      exact ⟨[], source, line, ls, rfl, rfl, s, next, a, hs, Option.mem_toList.mp ha,
        List.mem_of_mem_head? he⟩
    · obtain ⟨before, source', line', after, rfl, hbefore, hraises⟩ :=
        ih (Session.raised_runLine hs) h
      refine ⟨(source, line) :: before, source', line', after, rfl, ?_, hraises⟩
      rw [Session.answers_cons, firstError?_append, hnone, hbefore, Option.or_none]

/-- **A syntax error of a script** is what is wrong with its first line that raises an error. -/
theorem exists_of_runScript_error {source : String} {x : SyntaxError}
    (h : runScript source = .error (.parsing x)) :
    ∃ before l after, lines source = before ++ l :: after ∧
      (∃ v, runScriptLines (.start 0) 0 none 1 before = .ok v) ∧
      ∃ n, (readLine l (before.length + 1) n).outcome = .error x := by
  have hfirst : firstError? (scriptAnswers source) = some (.parsing x) := by
    rw [runScript, runScriptLines_eq] at h
    split at h
    · rename_i e he
      cases h
      exact he
    · cases h
  obtain ⟨_, l, line, _, hls, hbefore, t, n, a, ht, ha, hx⟩ :=
    exists_of_firstError?_answers rfl hfirst
  obtain ⟨before, rest, hlines, rfl, hrest⟩ := List.zipIdx_eq_append_iff.mp hls
  cases rest with
  | nil => cases hrest
  | cons l' after =>
    rw [List.zipIdx_cons] at hrest
    cases hrest
    refine ⟨before, l, after, hlines, ?_, n, ?_⟩
    · rw [runScriptLines_eq, hbefore]
      exact ⟨_, rfl⟩
    · rcases Session.mem_errors_runLine ha hx with hx | hx
      · rw [ht] at hx
        cases hx
      · rwa [Nat.add_comm]

/-! ## Lines, inputs and scripts -/

/-- **Syntax errors carry the number of their line.** Every error of reading a line carries the
number that is given for the line. The output of an input is put together from the responses to its
lines, whatever its bytes are and whether it is a conversation or not, and every syntax error in the
response to the line at a position shows that position, unless it was pending in front of the input.
A syntax error of a script is what is wrong with its first line that raises an error, and shows the
position of that line. Positions count from one, and they count all lines, also those of blanks,
comments and commands. -/
theorem syntaxErrors_carry_line :
    (∀ (source : String) (line : Nat) (next : NodeId) (x : SyntaxError),
      (readLine source line next).outcome = .error x → x.line = line) ∧
    (∀ (s : Session) (next : NodeId) (input : ByteArray) (interactive : Bool),
      let c := Console.start s next
      let opening := if interactive then c.greet else c
      let ls := Console.handled interactive (byteLines input)
      let responses := opening.responses interactive ls
      let prompt := Console.promptText interactive
      (runInput s next input interactive).1.output =
          opening.output ++ String.join (responses.map fun r => prompt ++ r.written) ++ prompt ∧
        ∀ (i : Nat) l, ls[i]? = some l →
          (byteLines input)[i]?.bind decodeLine = some l ∧
            ∃ d : Console, d.line = i ∧ responses[i]? = some (d.response interactive l) ∧
              ∀ errors x, d.response interactive l = .fails errors → .parsing x ∈ errors →
                .parsing x ∈ s.raised ∨
                  Console.errorLine (.parsing x) =
                    "error: syntax error: Error on line " ++ toString (i + 1) ++ ": " ++
                      x.reason ++ "\n") ∧
    ∀ (source : String) (x : SyntaxError), runScript source = .error (.parsing x) →
      ∃ before l after, lines source = before ++ l :: after ∧
        (∃ v, runScriptLines (.start 0) 0 none 1 before = .ok v) ∧
        (∃ n, (readLine l (before.length + 1) n).outcome = .error x) ∧
        (Error.parsing x).message =
          "syntax error: Error on line " ++ toString (before.length + 1) ++ ": " ++ x.reason := by
  refine ⟨fun _ _ _ _ => line_of_readLine, ?_, ?_⟩
  · intro s next input interactive c opening ls responses prompt
    refine ⟨Console.output_readLines (byteLines input) opening, fun i l hl =>
      ⟨Console.getElem?_of_handled hl, ?_⟩⟩
    obtain ⟨d, hline, hraised, hd⟩ := Console.exists_getElem?_responses hl opening
    have hopening : opening.line = 0 ∧ opening.session = s := by
      cases interactive <;> exact ⟨rfl, rfl⟩
    rw [hopening.1, Nat.zero_add] at hline
    rw [hopening.2] at hraised
    refine ⟨d, hline, hd, fun errors x hr hx => ?_⟩
    refine (Console.line_of_response hr hx).imp (@hraised _) fun hx => ?_
    rw [Console.errorLine_parsing, hx, hline]
  · intro source x h
    obtain ⟨before, l, after, hls, hbefore, n, hx⟩ := exists_of_runScript_error h
    refine ⟨before, l, after, hls, hbefore, ⟨n, hx⟩, ?_⟩
    rw [Error.message_parsing, line_of_readLine hx]

/-- The end of a statement that a command is to show, in a conversation with a command, an empty
line and a comment before it, and an open parenthesis on the last line of a script. -/
theorem syntaxErrors_carry_line_of_command :
    let input := "help\n\n// note\ndump 2 +\n".toUTF8
    let script := "x = 1\n\n(x"
    let ls := Console.handled true (byteLines input)
    let responses := (Console.start (.start 0) 0).greet.responses true ls
    ((readLine "2 $ 3" 7 0).outcome = .error (.unexpectedToken "$" 7) ∧
      ls[3]? = some "dump 2 +\n" ∧
      responses[3]? = some (.fails [.parsing (.unexpectedEnd 4)]) ∧
      runScript script = .error (.parsing (.unclosed 3))) ∧
    (SyntaxError.unexpectedToken "$" 7).line = 7 ∧
    Console.errorLine (.parsing (.unexpectedEnd 4)) =
      "error: syntax error: Error on line " ++ toString (3 + 1) ++ ": " ++
        (SyntaxError.unexpectedEnd 4).reason ++ "\n" ∧
    ∃ before l after, lines script = before ++ l :: after ∧
      ∃ n, (readLine l (before.length + 1) n).outcome = .error (.unclosed 3) := by
  intro input script ls responses
  have hread : (readLine "2 $ 3" 7 0).outcome = .error (.unexpectedToken "$" 7) := by decide +kernel
  have hl : ls[3]? = some "dump 2 +\n" := by decide +kernel
  have hresponse : responses[3]? = some (.fails [.parsing (.unexpectedEnd 4)]) := by decide +kernel
  have hscript : runScript script = .error (.parsing (.unclosed 3)) := by decide +kernel
  obtain ⟨hlines, hinputs, hscripts⟩ := syntaxErrors_carry_line
  obtain ⟨-, d, -, hd, hshown⟩ := (hinputs (.start 0) 0 input true).2 3 _ hl
  have hfails := Option.some.inj (hd.symm.trans hresponse)
  obtain ⟨before, l, after, hls, -, hn, -⟩ := hscripts script _ hscript
  refine ⟨⟨hread, hl, hresponse, hscript⟩, hlines _ _ _ _ hread, ?_, before, l, after, hls, hn⟩
  exact (hshown _ _ hfails List.mem_cons_self).resolve_left (fun h => nomatch h)

end LineCalc
