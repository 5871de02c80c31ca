import LineCalc.Proofs.Session.Atomicity
import LineCalc.Proofs.Token.LongestMatch

/-!
# Runs of lines

Lines are handled one after the other, each in the session that the lines before it led to.

* `Session.Throughout` says that something holds of every line of a run, in the session in front of
  that line.
* `Session.throughout_iff_of_invariant`: two things that amount to the same as long as an invariant
  holds hold throughout the same runs, if the lines that they hold of keep the invariant.
* `Session.replies` are the answers to the lines of a run, where a line may have none, and
  `Session.answers` are the answers alone.
* `Session.answer?_eq_none_iff`: the lines without an answer are those of blanks and comments.
* `Session.exists_of_getLast?_answers`: the last answer is that to the last other line, given in the
  session that `Session.behind` the lines before it is.
-/

namespace LineCalc

namespace Session

/-- What can be said of a line, its number and the number for the next node in a session. -/
abbrev LineProperty := Session → String → Nat → NodeId → Prop

/-- A property of every line of a run, in the session that the lines before it led to. -/
def Throughout (P : LineProperty) (s : Session) (next : NodeId) : List (String × Nat) → Prop
  | [] => True
  | (source, line) :: more =>
    P s source line next ∧
      Throughout P (s.runLine source line next).session (s.runLine source line next).next more

/-- Two properties hold throughout the same runs if they amount to the same under an invariant that
every line with the property keeps. -/
theorem throughout_iff_of_invariant {I : Session → Prop} {P Q : LineProperty}
    (hiff : ∀ s source line next, I s → (P s source line next ↔ Q s source line next))
    (hkeep : ∀ s source line next, I s → P s source line next →
      I (s.runLine source line next).session)
    {s : Session} (hs : I s) (next : NodeId) (ls : List (String × Nat)) :
    s.Throughout P next ls ↔ s.Throughout Q next ls := by
  induction ls generalizing s next with
  | nil => exact Iff.rfl
  | cons l ls ih =>
    obtain ⟨source, line⟩ := l
    unfold Throughout
    constructor
    · rintro ⟨hp, hmore⟩
      exact ⟨(hiff s source line next hs).mp hp,
        (ih (hkeep s source line next hs hp) _).mp hmore⟩
    · rintro ⟨hq, hmore⟩
      have hp := (hiff s source line next hs).mpr hq
      exact ⟨hp, (ih (hkeep s source line next hs hp) _).mpr hmore⟩

/-! ## Answers -/

/-- The answers to the lines of a run; none to a line without a statement. -/
def replies (s : Session) (next : NodeId) : List (String × Nat) → List (Option Answer)
  | [] => []
  | (source, line) :: more =>
    let turn := s.runLine source line next
    turn.answer? :: replies turn.session turn.next more

/-- The answers to those lines of a run that have one. -/
def answers (s : Session) (next : NodeId) (ls : List (String × Nat)) : List Answer :=
  (s.replies next ls).filterMap id

/-- The session behind a run, and the number for the next node there. -/
def behind (s : Session) (next : NodeId) : List (String × Nat) → Session × NodeId
  | [] => (s, next)
  | (source, line) :: more =>
    let turn := s.runLine source line next
    behind turn.session turn.next more

variable {s : Session} {source : String} {line : Nat} {next : NodeId} {a : Answer}
  {ls : List (String × Nat)}

theorem answers_cons (s : Session) (source : String) (line : Nat) (next : NodeId)
    (ls : List (String × Nat)) :
    s.answers next ((source, line) :: ls) =
      (s.runLine source line next).answer?.toList ++
        (s.runLine source line next).session.answers (s.runLine source line next).next ls := by
  unfold answers
  rw [replies]
  cases (s.runLine source line next).answer? with
  | none => exact List.filterMap_cons_none rfl
  | some a => exact List.filterMap_cons_some rfl

/-- A line holds no statement exactly if it consists of blanks and comments. -/
theorem readLine_eq_none_iff :
    (readLine source line next).outcome = .ok none ↔ Blank source.toList := by
  have hblank : tokenizeChars line source.toList = .ok [] ↔ Blank source.toList :=
    tokenizeChars_eq_nil_iff
  rw [← hblank]
  unfold readLine tokenize
  cases tokenizeChars line source.toList with
  | error x => exact ⟨fun h => (by cases h), fun h => (by cases h)⟩
  | ok ts =>
    simp only [readLexemes, Except.ok.injEq]
    by_cases hnil : ts = []
    · rw [if_pos hnil]
      exact ⟨fun _ => hnil, fun _ => rfl⟩
    · rw [if_neg hnil]
      refine ⟨fun h => ?_, fun h => absurd h hnil⟩
      split at h
      · cases h
      · simp only [lineOutcome] at h
        split at h <;> cases h

theorem answer?_eq_none_iff :
    (s.runLine source line next).answer? = none ↔ Blank source.toList := by
  have hnone : (readLine source line next).outcome = .ok none ↔ Blank source.toList :=
    readLine_eq_none_iff
  rw [← hnone]
  cases ho : (readLine source line next).outcome with
  | error x =>
    rw [(runLine_of_error ho).1]
    exact ⟨fun h => (by cases h), fun h => (by cases h)⟩
  | ok statement? =>
    cases statement? with
    | none =>
      rw [(runLine_of_blank ho).1]
      exact ⟨fun _ => rfl, fun _ => rfl⟩
    | some e =>
      rw [(runLine_of_statement ho).1]
      exact ⟨fun h => (by cases h), fun h => (by cases h)⟩

/-- An answer without errors is that to a statement. -/
theorem exists_statement_of_answer? (h : (s.runLine source line next).answer? = some a)
    (hok : a.errors = []) :
    ∃ e, (readLine source line next).outcome = .ok (some e) ∧ a.echo = !e.isAssign := by
  cases ho : (readLine source line next).outcome with
  | error x =>
    rw [(runLine_of_error ho).1] at h
    cases h
    exact absurd hok (List.append_ne_nil_of_right_ne_nil _ (List.cons_ne_nil _ _))
  | ok statement? =>
    cases statement? with
    | none =>
      rw [(runLine_of_blank ho).1] at h
      cases h
    | some e =>
      rw [(runLine_of_statement ho).1] at h
      cases h
      exact ⟨e, rfl, rfl⟩

theorem answers_eq_nil_iff : s.answers next ls = [] ↔ ∀ l ∈ ls, Blank l.1.toList := by
  induction ls generalizing s next with
  | nil =>
    constructor
    · exact fun _ _ hl => nomatch hl
    · exact fun _ => rfl
  | cons l ls ih =>
    rw [answers_cons, List.append_eq_nil_iff, ih, List.forall_mem_cons,
      Option.toList_eq_nil_iff, answer?_eq_none_iff]

/-- The last answer of a run is the answer to a line behind which there are only blanks and
comments. -/
theorem exists_of_getLast?_answers (h : (s.answers next ls).getLast? = some a) :
    ∃ before source line after, ls = before ++ (source, line) :: after ∧
      ((s.behind next before).1.runLine source line (s.behind next before).2).answer? = some a ∧
      ∀ l ∈ after, Blank l.1.toList := by
  induction ls generalizing s next with
  | nil => cases h
  | cons l ls ih =>
    obtain ⟨source, line⟩ := l
    rw [answers_cons, List.getLast?_append] at h
    cases hlast : ((s.runLine source line next).session.answers
        (s.runLine source line next).next ls).getLast? with
    | some b =>
      rw [hlast] at h
      cases h
      obtain ⟨before, source', line', after, rfl, ha, hafter⟩ := ih hlast
      exact ⟨(source, line) :: before, source', line', after, rfl, ha, hafter⟩
    | none =>
      rw [hlast] at h
      refine ⟨[], source, line, ls, rfl, ?_, ?_⟩
      · cases ha : (s.runLine source line next).answer? with
        | none =>
          rw [ha] at h
          cases h
        | some b =>
          rw [ha] at h
          cases h
          exact ha
      · exact answers_eq_nil_iff.mp (List.getLast?_eq_none_iff.mp hlast)

end Session

end LineCalc
