import LineCalc.Console
import LineCalc.Proofs.Session.Alike

/-!
# What an input of statements writes

Outside a conversation every line of an input is a statement, and what it writes is its answer: the
value, or a line for every error.

* `Answer.shown` are the lines that show an answer, and `unlines` puts lines together to a text.
* `Console.step_statement` says everything that one line does to the console, and
  `Console.foldl_step` what a list of lines does.
* `Console.transcript` lists what each line writes, and `Console.transcript_eq` says what that is.
* `IsErrorLine` are the lines of an output that show an error. `lines_unlines` and
  `isErrorLine_iff_of_mem_shown` find them in an output.
* `runInput_statements`: an input of well-formed text is read to its end.
-/

namespace LineCalc

/-- Lines put together to a text, each with a line feed behind it. -/
def unlines (ls : List String) : String := String.join (ls.map (· ++ "\n"))

theorem unlines_nil : unlines [] = "" := String.join_nil

theorem unlines_cons (l : String) (ls : List String) :
    unlines (l :: ls) = l ++ "\n" ++ unlines ls := by
  unfold unlines
  rw [List.map_cons, String.join_cons]

theorem unlines_append (ls ls' : List String) :
    unlines (ls ++ ls') = unlines ls ++ unlines ls' := by
  unfold unlines
  rw [List.map_append, String.join_append]

theorem unlines_singleton (l : String) : unlines [l] = l ++ "\n" := by
  rw [unlines_cons, unlines_nil, String.append_empty]

/-- A text of full lines is cut into what was put together. -/
theorem lines_unlines {ls : List String} (h : ∀ l ∈ ls, OneLine l) : lines (unlines ls) = ls := by
  induction ls with
  | nil => rfl
  | cons l ls ih =>
    obtain ⟨hl, hls⟩ := List.forall_mem_cons.mp h
    rw [unlines_cons, lines_append_newline hl, ih hls]

namespace Answer

/-- The lines that show an answer. -/
def shown (a : Answer) : List String :=
  if a.isOk then (if a.echo then [a.value.plain] else [])
  else a.errors.map fun e => "error: " ++ e.message

variable {a : Answer}

theorem shown_of_isOk (h : a.isOk = true) :
    a.shown = if a.echo then [a.value.plain] else [] := if_pos h

theorem shown_of_not_isOk (h : ¬ a.isOk = true) :
    a.shown = a.errors.map fun e => "error: " ++ e.message := if_neg h

theorem isOk_iff : a.isOk = true ↔ a.errors = [] := List.isEmpty_iff

/-- The lines that show an answer are lines. -/
theorem oneLine_of_mem_shown (h : ∀ x ∈ a.errors, x.OfLine) : ∀ l ∈ a.shown, OneLine l := by
  by_cases hok : a.isOk = true
  · rw [shown_of_isOk hok]
    cases a.echo with
    | true => exact List.forall_mem_singleton.mpr (Binary64.oneLine_plain _)
    | false => exact fun _ hl => nomatch hl
  · rw [shown_of_not_isOk hok]
    intro l hl
    obtain ⟨x, hx, rfl⟩ := List.mem_map.mp hl
    exact OneLine.append (by decide) (h x hx).oneLine_message

end Answer

/-! ## Lines that show errors -/

/-- Whether a line of an output shows an error. -/
def isErrorLine (l : String) : Bool := "error: ".toList.isPrefixOf l.toList

theorem isErrorLine_error (message : String) : isErrorLine ("error: " ++ message) = true := by
  unfold isErrorLine
  rw [String.toList_append, List.isPrefixOf_iff_prefix]
  exact List.prefix_append _ _

/-- No value starts like an error. -/
theorem isErrorLine_plain (x : Binary64) : isErrorLine x.plain = false := by
  rw [← Bool.not_eq_true]
  intro h
  unfold isErrorLine at h
  have he : 'e' ∈ "error: ".toList := by decide
  have hplain := (List.isPrefixOf_iff_prefix.mp h).subset he
  rw [Binary64.plain, String.toList_ofList] at hplain
  cases Binary64.isPlainPart_of_mem_plainChars 'e' hplain

namespace Answer

variable {a : Answer}

theorem isErrorLine_of_mem_shown {l : String} (h : l ∈ a.shown) : isErrorLine l = !a.isOk := by
  by_cases hok : a.isOk = true
  · rw [shown_of_isOk hok] at h
    rw [hok]
    cases he : a.echo with
    | true =>
      rw [he, if_pos rfl, List.mem_singleton] at h
      rw [h, isErrorLine_plain]
      rfl
    | false =>
      rw [he] at h
      cases h
  · rw [shown_of_not_isOk hok] at h
    obtain ⟨x, -, rfl⟩ := List.mem_map.mp h
    rw [isErrorLine_error, Bool.eq_false_iff.mpr hok]
    rfl

/-- An error line is among those that show an answer exactly if the answer has errors. -/
theorem any_isErrorLine_shown (a : Answer) : a.shown.any isErrorLine = !a.isOk := by
  by_cases hok : a.isOk = true
  · rw [hok, List.any_eq_false.mpr]
    · rfl
    · intro l hl
      rw [isErrorLine_of_mem_shown hl, hok]
      decide
  · obtain ⟨x, xs, hx⟩ := List.exists_cons_of_ne_nil (mt isOk_iff.mpr hok)
    rw [shown_of_not_isOk hok, hx, List.map_cons, List.any_cons, isErrorLine_error, Bool.true_or,
      Bool.eq_false_iff.mpr hok]
    rfl

end Answer

namespace Console

/-! ## One line -/

/-- The number of answers with errors. -/
def failures (as : List Answer) : Nat := as.countP (!·.isOk)

/-- The lines that show answers. -/
def shown (as : List Answer) : List String := as.flatMap Answer.shown

/-- Showing an answer. -/
theorem answer_eq (c : Console) (a : Answer) :
    c.answer a =
      { c with
        failed := c.failed + failures [a]
        output := c.output ++ unlines a.shown } := by
  by_cases hok : a.isOk = true
  · rw [answer, if_pos hok, Answer.shown_of_isOk hok]
    have hf : failures [a] = 0 := by simp [failures, hok]
    cases a.echo with
    | true => simp [hf, write, unlines_singleton]
    | false => simp [hf, unlines_nil]
  · rw [answer, if_neg hok, Answer.shown_of_not_isOk hok]
    have hf : failures [a] = 1 := by simp [failures, hok]
    simp only [report, write, hf, unlines, List.map_map]
    rfl

/-- **What a statement does to the console**: the session goes on, the line is counted, and its
answer is written and counted if it has errors. -/
theorem step_statement (c : Console) (l : String) :
    c.step false l =
      { session := (c.session.runLine l (c.line + 1) c.next).session
        next := (c.session.runLine l (c.line + 1) c.next).next
        line := c.line + 1
        failed := c.failed +
          failures (c.session.runLine l (c.line + 1) c.next).answer?.toList
        output := c.output ++
          unlines (shown (c.session.runLine l (c.line + 1) c.next).answer?.toList) } := by
  simp only [step, command?, Bool.false_eq_true, if_false, runStatement]
  cases (c.session.runLine l (c.line + 1) c.next).answer? with
  | none => simp [failures, shown, unlines_nil]
  | some a => simp [answer_eq, shown]

/-! ## All lines -/

/-- What a line writes. -/
def written (c : Console) (l : String) : String := ({ c with output := "" }.step false l).output

theorem written_eq (c : Console) (l : String) :
    c.written l = unlines (shown (c.session.runLine l (c.line + 1) c.next).answer?.toList) := by
  rw [written, step_statement]
  exact String.empty_append

/-- What each line of an input of statements writes. -/
def transcript (c : Console) : List String → List String
  | [] => []
  | l :: ls => c.written l :: transcript (c.step false l) ls

/-- The answers to the lines that the console reads next. -/
def replies (c : Console) (ls : List String) : List (Option Answer) :=
  c.session.replies c.next (ls.zipIdx (c.line + 1))

theorem replies_cons (c : Console) (l : String) (ls : List String) :
    c.replies (l :: ls) =
      (c.session.runLine l (c.line + 1) c.next).answer? :: (c.step false l).replies ls := by
  unfold replies
  rw [List.zipIdx_cons, Session.replies, step_statement]

/-- The answers to those of the lines that have one. -/
def answers (c : Console) (ls : List String) : List Answer := (c.replies ls).filterMap id

theorem answers_cons (c : Console) (l : String) (ls : List String) :
    c.answers (l :: ls) =
      (c.session.runLine l (c.line + 1) c.next).answer?.toList ++ (c.step false l).answers ls := by
  unfold answers
  rw [replies_cons]
  cases (c.session.runLine l (c.line + 1) c.next).answer? <;> rfl

/-- Every line writes its own answer, whatever was written before. -/
theorem transcript_eq (c : Console) (ls : List String) :
    c.transcript ls = (c.replies ls).map fun reply => unlines (shown reply.toList) := by
  induction ls generalizing c with
  | nil => rfl
  | cons l ls ih =>
    rw [transcript, ih, replies_cons, List.map_cons, written_eq]

/-- **What a list of statements does to the console.** -/
theorem foldl_step (c : Console) (ls : List String) :
    (ls.foldl (step · false ·) c).failed = c.failed + failures (c.answers ls) ∧
      (ls.foldl (step · false ·) c).output = c.output ++ unlines (shown (c.answers ls)) := by
  induction ls generalizing c with
  | nil => simp [answers, replies, Session.replies, failures, shown, unlines_nil]
  | cons l ls ih =>
    rw [List.foldl_cons, answers_cons]
    obtain ⟨hf, ho⟩ := ih (c.step false l)
    rw [hf, ho]
    have hs := step_statement c l
    constructor
    · rw [congrArg failed hs, failures, failures, failures, List.countP_append, Nat.add_assoc]
    · rw [congrArg output hs, shown, shown, shown, List.flatMap_append, unlines_append,
        String.append_assoc]

/-- The output is what the lines write, one after the other. -/
theorem join_transcript (c : Console) (ls : List String) :
    String.join (c.transcript ls) = unlines (shown (c.answers ls)) := by
  rw [transcript_eq]
  unfold answers
  induction c.replies ls with
  | nil => rfl
  | cons reply replies ih =>
    rw [List.map_cons, String.join_cons, ih]
    cases reply with
    | none =>
      rw [List.filterMap_cons_none rfl, Option.toList_none, shown, List.flatMap_nil, unlines_nil,
        String.empty_append]
    | some a =>
      have hcons : (some a :: replies).filterMap id = a :: replies.filterMap id := rfl
      rw [hcons, Option.toList_some, shown, List.flatMap_singleton, ← unlines_append]
      rfl

/-- No error is pending in front of an input, so its answers have errors of lines only. -/
theorem ofLine_of_mem_answers {c : Console} (hc : c.session.raised = []) {ls : List String}
    {a : Answer} (h : a ∈ c.answers ls) : ∀ x ∈ a.errors, x.OfLine :=
  Session.ofLine_of_mem_answers hc h

theorem lines_unlines_shown {as : List Answer} (h : ∀ a ∈ as, ∀ x ∈ a.errors, x.OfLine) :
    lines (unlines (shown as)) = shown as := by
  refine lines_unlines fun l hl => ?_
  obtain ⟨a, ha, hl⟩ := List.mem_flatMap.mp hl
  exact Answer.oneLine_of_mem_shown (h a ha) l hl

/-- What a line writes has an error line in it exactly if its answer has errors. -/
theorem any_isErrorLine_reply {reply : Option Answer}
    (h : ∀ a ∈ reply.toList, ∀ x ∈ a.errors, x.OfLine) :
    (lines (unlines (shown reply.toList))).any isErrorLine = reply.any (!·.isOk) := by
  rw [lines_unlines_shown h]
  cases reply with
  | none => rfl
  | some a =>
    rw [Option.toList_some, shown, List.flatMap_singleton, Answer.any_isErrorLine_shown]
    rfl

/-- **As many lines fail as write a line that shows an error.** -/
theorem countP_transcript {c : Console} (hc : c.session.raised = []) (ls : List String) :
    (c.transcript ls).countP (fun text => (lines text).any isErrorLine) =
      failures (c.answers ls) := by
  have hline : ∀ a ∈ c.answers ls, ∀ x ∈ a.errors, x.OfLine := fun _ => ofLine_of_mem_answers hc
  rw [transcript_eq, List.countP_map, failures]
  unfold answers at hline ⊢
  rw [List.countP_filterMap]
  refine List.countP_congr fun reply hreply => ?_
  have hshown : _ = reply.any (!·.isOk) := any_isErrorLine_reply fun a ha =>
    hline a (List.mem_filterMap.mpr ⟨reply, hreply, Option.mem_toList.mp ha⟩)
  rw [Function.comp_apply, hshown]
  cases reply <;> simp

/-! ## Whole inputs -/

/-- Lines that are well-formed text are all read. -/
theorem readLines_statements (bytes : List (List UInt8)) (ls : List String) (c : Console)
    (h : bytes.map decodeLine = ls.map some) :
    readLines false bytes c = (ls.foldl (step · false ·) c, .done) := by
  induction bytes generalizing ls c with
  | nil =>
    cases ls with
    | nil => rfl
    | cons l ls => cases h
  | cons line bytes ih =>
    cases ls with
    | nil => cases h
    | cons l ls =>
      rw [List.map_cons, List.map_cons, List.cons.injEq] at h
      obtain ⟨hl, hls⟩ := h
      have hprompt : c.prompt false = c := rfl
      rw [readLines, hprompt, advance, hl]
      exact ih ls _ hls

/-- **An input of well-formed text is read to its end**, and its output shows the answers to its
lines. -/
theorem runInput_statements (session : Session) (next : NodeId) (source : String) :
    let run := runInput session next source.toUTF8 false
    let answers := (start session next).answers (fullLines source)
    run.2 = .done ∧ run.1.failed = failures answers ∧ run.1.output = unlines (shown answers) := by
  have hrun : runInput session next source.toUTF8 false =
      ((fullLines source).foldl (step · false ·) (start session next), .done) :=
    readLines_statements _ _ _ (byteLines_toUTF8 source)
  obtain ⟨hfailed, houtput⟩ := foldl_step (start session next) (fullLines source)
  simp only [hrun, hfailed, houtput]
  exact ⟨trivial, Nat.zero_add _, String.empty_append⟩

end Console

end LineCalc
