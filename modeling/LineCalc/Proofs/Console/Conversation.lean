import LineCalc.Proofs.Console.Command
import LineCalc.Proofs.Console.Output
import LineCalc.Proofs.Session.Renumbering
import LineCalc.Proofs.Text.Pieces

/-!
# Conversations

A conversation is the reading of a script, with commands in some of its lines and a prompt in front
of each. A line with a command is as good as empty for everything that lasts.

* `blanked` replaces a command by an empty line, and `saidBefore` are the lines that a conversation
  reads before it is told to stop.
* `Console.dialogue` lists what each line of a conversation writes. It goes by the console of the
  script, from which a conversation differs in the numbers of nodes only.
* `Console.Follows` compares a conversation with its script, `Console.Follows.step` is about a line,
  and `Console.Follows.foldl` about lines.
* `Console.readLines_conversation`: a conversation reads the lines before it is told to stop.
* `Console.conversation_follows_script` compares a whole conversation with its script.
-/

namespace LineCalc

/-! ## Answers without numbers -/

namespace Answer

variable {a b : Answer}

theorem messages_eq_of_seen_eq (h : a.seen = b.seen) :
    a.errors.map Error.message = b.errors.map Error.message := congrArg Prod.snd h

theorem isOk_eq_of_seen_eq (h : a.seen = b.seen) : a.isOk = b.isOk := by
  have hmessages := congrArg List.isEmpty (messages_eq_of_seen_eq h)
  rwa [List.isEmpty_map, List.isEmpty_map] at hmessages

/-- Answers that look alike are shown alike. -/
theorem shown_eq_of_seen_eq (h : a.seen = b.seen) : a.shown = b.shown := by
  have hvalue : a.value = b.value := congrArg (value ∘ Prod.fst) h
  have hecho : a.echo = b.echo := congrArg (echo ∘ Prod.fst) h
  have herrors : ∀ c : Answer, (c.errors.map fun e => "error: " ++ e.message) =
      (c.errors.map Error.message).map ("error: " ++ ·) := by
    intro c
    rw [List.map_map]
    rfl
  unfold shown
  rw [isOk_eq_of_seen_eq h, hvalue, hecho, herrors, herrors, messages_eq_of_seen_eq h]

end Answer

namespace Console

theorem shown_eq_of_map_seen_eq {x y : Option Answer} (h : x.map Answer.seen = y.map Answer.seen) :
    shown x.toList = shown y.toList ∧ failures x.toList = failures y.toList := by
  cases x with
  | none =>
    cases y with
    | none => exact ⟨rfl, rfl⟩
    | some b => cases h
  | some a =>
    cases y with
    | none => cases h
    | some b =>
      have hab : a.seen = b.seen := Option.some.inj h
      simp only [Option.toList_some, shown, failures, List.flatMap_cons, List.countP_cons,
        Answer.shown_eq_of_seen_eq hab, Answer.isOk_eq_of_seen_eq hab]
      exact ⟨trivial, trivial⟩

/-! ## What a conversation says -/

/-- The line of the script for a line of a conversation: the line itself, or an empty one for a
command. -/
def blanked (l : String) : String := if (Command.ofLine? l).isSome then "\n" else l

/-- The lines in front of the first one that ends the conversation. -/
def saidBefore (ls : List String) : List String :=
  ls.takeWhile fun l => Command.ofLine? l ≠ some .quit

/-- What a line of a conversation writes behind its prompt: what it writes in the script, or what
its command writes. -/
def said (script : Console) (next : NodeId) (l : String) : String :=
  match Command.ofLine? l with
  | some command => command.reply script.session.store (script.line + 1) next
  | none => script.written l

/-- The number for the next node behind a line of a conversation. -/
def nextBehind (line : Nat) (next : NodeId) (l : String) : NodeId :=
  match Command.ofLine? l with
  | some command => command.next line next
  | none => (readLine l line next).nodes.next

/-- What each line of a conversation writes behind its prompt, given the console of the script and
the number for the next node of the conversation. -/
def dialogue (script : Console) (next : NodeId) : List String → List String
  | [] => []
  | l :: ls =>
    script.said next l ::
      dialogue (script.step false (blanked l)) (nextBehind (script.line + 1) next l) ls

variable {ls : List String} {i : Nat} {l : String}

/-- A line of a conversation writes what it is said to write behind the script in front of it. -/
theorem exists_getElem?_dialogue (hl : ls[i]? = some l) (script : Console) (next : NodeId) :
    ∃ n, (script.dialogue next ls)[i]? =
      some ((((ls.take i).map blanked).foldl (step · false ·) script).said n l) := by
  induction ls generalizing script next i with
  | nil => cases hl
  | cons first ls ih =>
    cases i with
    | zero =>
      cases hl
      exact ⟨next, rfl⟩
    | succ i => exact ih hl _ _

/-- A statement writes what it writes in the script. -/
theorem getElem?_dialogue_of_statement (hl : ls[i]? = some l) (hc : Command.ofLine? l = none)
    (script : Console) (next : NodeId) :
    (script.dialogue next ls)[i]? = (script.transcript (ls.map blanked))[i]? := by
  induction ls generalizing script next i with
  | nil => cases hl
  | cons first ls ih =>
    rw [dialogue, List.map_cons, transcript]
    cases i with
    | zero =>
      cases hl
      simp [said, blanked, hc]
    | succ i => exact ih hl _ _

/-- Every line of a script is counted. -/
theorem line_foldl_step (c : Console) (ls : List String) :
    (ls.foldl (step · false ·) c).line = c.line + ls.length := by
  induction ls generalizing c with
  | nil => rfl
  | cons l ls ih =>
    rw [List.foldl_cons, ih, step_statement, List.length_cons]
    exact Nat.add_right_comm _ _ _

/-! ## A conversation and its script -/

/-- The console of a conversation and that of its script: they differ in what was written and in the
numbers of nodes. -/
structure Follows (talk script : Console) : Prop where
  session : Session.Alike talk.session script.session
  line : talk.line = script.line
  failed : talk.failed = script.failed

/-- The next line of a conversation, behind its prompt. -/
def converse (c : Console) (l : String) : Console := (c.prompt true).step true l

/-- An empty line does nothing but count. -/
theorem step_newline (c : Console) :
    c.step false "\n" =
      { c with
        next := (c.session.runLine "\n" (c.line + 1) c.next).next
        line := c.line + 1 } := by
  have hchars : "\n".toList = ['\n'] := rfl
  have hblank : Blank "\n".toList := hchars ▸ .separator rfl .done
  have hnone : (readLine "\n" (c.line + 1) c.next).outcome = .ok none :=
    Session.readLine_eq_none_iff.mpr hblank
  obtain ⟨ha, hs⟩ := Session.runLine_of_blank (s := c.session) hnone
  rw [step_statement, ha, hs]
  simp [failures, shown, unlines_nil]

namespace Follows

variable {talk script : Console}

/-- **A line of a conversation**: it writes what it is said to write behind its prompt, and goes on
like the script. -/
theorem step (h : Follows talk script) (l : String) :
    Follows (talk.converse l) (script.step false (blanked l)) ∧
      (talk.converse l).next = nextBehind (script.line + 1) talk.next l ∧
      (talk.converse l).output = talk.output ++ ("calc> " ++ script.said talk.next l) := by
  unfold converse blanked said nextBehind
  have hprompt : talk.prompt true = { talk with output := talk.output ++ "calc> " } := rfl
  cases hc : Command.ofLine? l with
  | some command =>
    rw [step_command ((command?_true l).trans hc), hprompt, Option.isSome_some, if_pos rfl,
      step_newline]
    refine ⟨⟨h.session, congrArg (· + 1) h.line, h.failed⟩, ?_, ?_⟩
    · simp only [h.line]
    · simp only [h.line, h.session.store, String.append_assoc]
  | none =>
    obtain ⟨ha, hs⟩ := h.session.runLine l (script.line + 1) talk.next script.next
    obtain ⟨hshown, hfailures⟩ := shown_eq_of_map_seen_eq ha
    rw [step_of_not_command ((command?_true l).trans hc), hprompt, step_statement,
      Option.isSome_none, if_neg Bool.false_ne_true, step_statement, written_eq]
    simp only [h.line, h.failed, hshown, hfailures, Session.next_runLine, String.append_assoc,
      and_true]
    exact ⟨hs, rfl, rfl⟩

/-- **Lines of a conversation** go on like the script, and write what they are said to write. -/
theorem foldl (h : Follows talk script) (ls : List String) :
    Follows (ls.foldl converse talk) ((ls.map blanked).foldl (Console.step · false ·) script) ∧
      (ls.foldl converse talk).output =
        talk.output ++ String.join ((script.dialogue talk.next ls).map ("calc> " ++ ·)) := by
  induction ls generalizing talk script with
  | nil => exact ⟨h, (String.append_empty).symm⟩
  | cons l ls ih =>
    obtain ⟨hl, hnext, houtput⟩ := h.step l
    obtain ⟨hfollows, hmore⟩ := ih hl
    simp only [List.foldl_cons, List.map_cons, dialogue, String.join_cons]
    refine ⟨hfollows, ?_⟩
    rw [hmore, hnext, houtput, String.append_assoc]

end Follows

/-! ## Whole conversations -/

/-- **A conversation reads the lines before it is told to stop**, and ends with a prompt. -/
theorem readLines_conversation (bytes : List (List UInt8)) (ls : List String) (c : Console)
    (h : bytes.map decodeLine = ls.map some) :
    (readLines true bytes c).2 = .done ∧
      (readLines true bytes c).1.session = ((saidBefore ls).foldl converse c).session ∧
      (readLines true bytes c).1.failed = ((saidBefore ls).foldl converse c).failed ∧
      (readLines true bytes c).1.output =
        ((saidBefore ls).foldl converse c).output ++ "calc> " := by
  induction bytes generalizing ls c with
  | nil =>
    cases ls with
    | nil => exact ⟨rfl, rfl, rfl, rfl⟩
    | cons l ls => cases h
  | cons line bytes ih =>
    cases ls with
    | nil => cases h
    | cons l ls =>
      rw [List.map_cons, List.map_cons, List.cons.injEq] at h
      obtain ⟨hl, hls⟩ := h
      unfold saidBefore
      rw [List.takeWhile_cons, readLines, advance, hl]
      simp only [command?_true]
      by_cases hq : Command.ofLine? l = some .quit
      · rw [if_pos hq, if_neg (by simp [hq]), step_command ((command?_true l).trans hq)]
        exact ⟨rfl, rfl, rfl, String.append_empty⟩
      · rw [if_neg hq, if_pos (by simp [hq]), List.foldl_cons]
        exact ih ls (c.converse l) hls

theorem areLines_map_blanked {ls : List String} (h : AreLines ls) : AreLines (ls.map blanked) := by
  refine h.map_or fun l => ?_
  unfold blanked
  split
  · exact Or.inr rfl
  · exact Or.inl rfl

/-- **Interactive mode is script mode plus commands and prompts.** Take the lines of a conversation
before it is told to stop, and replace the commands among them by empty lines. As a script they lead
to the same variables, the same errors pending and the same verbosity, and as many lines fail. The
conversation writes the greeting, then a prompt for each line and what that line is said to write,
then a prompt. Statements write what they write in the script. Every line has the number it has in
the script, where commands are counted too, and no command changes the session or the number of
failed lines. -/
theorem conversation_follows_script (s : Session) (next next' : NodeId) (source : String) :
    let ls := saidBefore (fullLines source)
    let script := start s next'
    let talk := runInput s next source.toUTF8 true
    let run := runInput s next' (String.join (ls.map blanked)).toUTF8 false
    (talk.2 = .done ∧ run.2 = .done) ∧
      (talk.1.session.store = run.1.session.store ∧
        talk.1.session.raised = run.1.session.raised ∧
        talk.1.session.verbosity = run.1.session.verbosity) ∧
      talk.1.failed = run.1.failed ∧
      run.1.output = String.join (script.transcript (ls.map blanked)) ∧
      talk.1.output =
        "ABACUS v" ++ version ++ "\n'help' for commands.\n" ++
          String.join ((script.dialogue next ls).map ("calc> " ++ ·)) ++ "calc> " ∧
      (∀ (i : Nat) l, ls[i]? = some l →
        let before := ((ls.take i).map blanked).foldl (step · false ·) script
        before.line = i ∧ (∃ n, (script.dialogue next ls)[i]? = some (before.said n l)) ∧
          (Command.ofLine? l = none →
            (script.dialogue next ls)[i]? = (script.transcript (ls.map blanked))[i]?)) ∧
      ∀ (c : Console) command,
        (c.obey command).session = c.session ∧ (c.obey command).failed = c.failed := by
  intro ls script talk run
  have hlines : fullLines (String.join (ls.map blanked)) = ls.map blanked :=
    (areLines_map_blanked ((areLines_fullLines source).takeWhile _)).fullLines_join
  have hrun : run = ((ls.map blanked).foldl (step · false ·) script, .done) := by
    refine readLines_statements _ _ _ ?_
    rw [byteLines_toUTF8, hlines]
  have htalk : talk = readLines true (byteLines source.toUTF8) (start s next).greet := rfl
  have hstart : Follows (start s next).greet script := ⟨.refl s, rfl, rfl⟩
  obtain ⟨hfollows, hsaid⟩ := hstart.foldl ls
  obtain ⟨hdone, hsession, hfailed, houtput⟩ :=
    readLines_conversation _ _ (start s next).greet (byteLines_toUTF8 source)
  rw [← htalk] at hdone hsession hfailed houtput
  have hsessions : Session.Alike talk.1.session run.1.session := by
    rw [hrun, hsession]
    exact hfollows.session
  have hwritten : run.1.output = String.join (script.transcript (ls.map blanked)) := by
    rw [hrun, join_transcript, (foldl_step script _).2]
    exact String.empty_append
  refine ⟨⟨hdone, congrArg Prod.snd hrun⟩,
    ⟨hsessions.store, hsessions.raised, hsessions.verbosity⟩, ?_, hwritten, ?_,
    fun i l hl => ⟨?_, exists_getElem?_dialogue hl script next,
      fun hc => getElem?_dialogue_of_statement hl hc script next⟩, fun c command => ?_⟩
  · rw [hrun]
    exact hfailed.trans hfollows.failed
  · refine houtput.trans (congrArg (· ++ "calc> ") (hsaid.trans ?_))
    rw [greet, write, start, String.empty_append]
  · obtain ⟨hi, -⟩ := List.getElem?_eq_some_iff.mp hl
    rw [line_foldl_step, List.length_map, List.length_take_of_le (Nat.le_of_lt hi)]
    exact Nat.zero_add i
  · rw [obey_eq]
    exact ⟨rfl, rfl⟩

end Console

end LineCalc
