import LineCalc.Proofs.Session.Renumbering

/-!
# Lines that leave no trace

A line that assigns to nothing leaves the session as it was, and so does a line that fails when
everything it assigns to is declared already. A run comes to the same with and without such lines.

* `Session.Idle` are these lines, and `Session.Idle.level`: they leave the variables alone and no
  error behind.
* `without` deletes the members of a list at some positions.
* `Session.IdleAt` says that the line at a position of a run is idle where it stands.
* `Session.run_without_idle_lines` is about runs from which any of their idle lines are deleted.
-/

namespace LineCalc

/-! ## Deleting members of a list -/

/-- The members of a list that are not at a position to be deleted. -/
def without {α : Type} (deleted : Nat → Bool) (xs : List α) : List α :=
  (xs.zipIdx.filter fun x => !deleted x.2).map Prod.fst

theorem without_cons {α : Type} (deleted : Nat → Bool) (x : α) (xs : List α) :
    without deleted (x :: xs) =
      (if deleted 0 then [] else [x]) ++ without (fun i => deleted (i + 1)) xs := by
  have hshift : ((xs.zipIdx 1).filter fun x => !deleted x.2).map Prod.fst =
      without (fun i => deleted (i + 1)) xs := by
    rw [List.zipIdx_succ, List.filter_map, List.map_map]
    rfl
  rw [← hshift, without, List.zipIdx_cons, List.filter_cons]
  cases deleted 0 <;> rfl

namespace Session

/-! ## Idle lines -/

/-- The line assigns to nothing, or it fails and everything that it assigns to is declared. -/
def Idle : LineProperty := fun s source line next =>
  (readLine source line next).targets = [] ∨
    (∀ name ∈ (readLine source line next).targets, s.store.contains name = true) ∧
      (s.runLine source line next).answer?.any (!·.isOk) = true

instance (s : Session) (source : String) (line : Nat) (next : NodeId) :
    Decidable (s.Idle source line next) := inferInstanceAs (Decidable (_ ∨ _))

theorem Commits.eq_of_nil {before after : Store} {v : Binary64} (h : Commits before after [] v) :
    before = after :=
  Store.ext_get? fun name => ((h name).trans (if_neg List.not_mem_nil)).symm

theorem Declares.eq_of_contains {before after : Store} {names : List String}
    (h : Declares before after names) (hn : ∀ name ∈ names, before.contains name = true) :
    before = after := by
  apply Store.ext_get?
  intro name
  rw [h name]
  by_cases hm : name ∈ names
  · obtain ⟨v, hv⟩ := Store.contains_eq_true_iff.mp (hn name hm)
    rw [hv, Option.some_or]
  · rw [if_neg hm, Option.or_none]

variable {s s' : Session} {source : String} {line : Nat} {next : NodeId}

/-- An idle line leaves the variables alone. -/
theorem Idle.store_eq (h : s.Idle source line next) :
    s.store = (s.runLine source line next).session.store := by
  unfold Idle at h
  cases ho : (readLine source line next).outcome with
  | error error => rw [(runLine_of_error ho).2]; rfl
  | ok statement? =>
    cases statement? with
    | none => rw [(runLine_of_blank ho).2]
    | some e =>
      obtain ⟨ha, hsession⟩ := runLine_of_statement (s := s) ho
      obtain ⟨ts, -, hd, -⟩ := derives_of_readLine ho
      rcases hev : (s.declareTargets e).evaluate e with ⟨v, after⟩
      have hstore := commits_or_declares hd.shape hev
      rw [LineReply.targets_of_ok ho, ha, hev] at h
      rw [hsession, hev, store_reset]
      by_cases hr : after.raised = []
      · rw [if_pos hr] at hstore
        rcases h with ht | ⟨-, hfails⟩
        · exact Commits.eq_of_nil (ht ▸ hstore)
        · simp [Answer.isOk, hr] at hfails
      · rw [if_neg hr] at hstore
        refine hstore.eq_of_contains ?_
        rcases h with ht | ⟨hdeclared, -⟩
        · rw [ht]
          exact fun _ hm => nomatch hm
        · exact hdeclared

/-- An idle line leaves nothing behind that a later line could see. -/
theorem Idle.level (h : s.Idle source line next) (hs : s.raised = []) :
    Level (s.runLine source line next).session s :=
  ⟨h.store_eq.symm, raised_runLine hs, hs⟩

/-! ## Runs without idle lines -/

/-- The line at the given position of a run is idle in the session that the lines before it led
to. -/
def IdleAt (s : Session) (next : NodeId) (ls : List (String × Nat)) (i : Nat) : Prop :=
  ∀ source line, ls[i]? = some (source, line) →
    (s.behind next (ls.take i)).1.Idle source line (s.behind next (ls.take i)).2

theorem Level.trans {t : Session} (h : Level s t) (h' : Level t s') : Level s s' :=
  ⟨h.store.trans h'.store, h.raised, h'.raised'⟩

/-- Two runs from sessions that are level, one of them without some of its idle lines. -/
theorem Level.run_without (h : Level s s') {deleted : Nat → Bool} (next next' : NodeId)
    {ls : List (String × Nat)} (hidle : ∀ i, deleted i = true → s.IdleAt next ls i) :
    (s.behind next ls).1.store = (s'.behind next' (without deleted ls)).1.store ∧
      (without deleted (s.replies next ls)).map (Option.map Answer.seen) =
        (s'.replies next' (without deleted ls)).map (Option.map Answer.seen) := by
  induction ls generalizing s s' next next' deleted with
  | nil => exact ⟨h.store, rfl⟩
  | cons l ls ih =>
    obtain ⟨source, line⟩ := l
    -- The positions of the lines behind the first one are shifted by one.
    have hmore : ∀ i, deleted (i + 1) = true →
        (s.runLine source line next).session.IdleAt (s.runLine source line next).next ls i :=
      fun i hi => hidle (i + 1) hi
    simp only [replies, without_cons, behind]
    by_cases hd : deleted 0 = true
    · have hlevel : Level (s.runLine source line next).session s' :=
        ((hidle 0 hd source line rfl).level h.raised).trans h
      simp only [if_pos hd, List.nil_append]
      exact ih hlevel _ _ hmore
    · have htokens : tokenize source line = tokenize source line := rfl
      have ha := h.answer?_seen htokens next next'
      have hlevel := (h.runLine htokens next next').2
      obtain ⟨hstore, hreplies⟩ := ih hlevel (s.runLine source line next).next
        (s'.runLine source line next').next hmore
      simp only [if_neg hd, List.singleton_append, List.map_cons, replies, behind, ha, hreplies,
        hstore, and_self]

/-- **Lines that assign nothing leave no trace.** From a run without errors pending in front of it,
any lines may be deleted that assign to nothing, or that fail when everything they assign to is
declared. The variables behind the run are the same, and the lines that remain have the same
answers, messages included, apart from the numbers of nodes. -/
theorem run_without_idle_lines (hs : s.diagnostics.raised = #[]) {deleted : Nat → Bool}
    (next next' : NodeId) {ls : List (String × Nat)}
    (hidle : ∀ i, deleted i = true → s.IdleAt next ls i) :
    (s.behind next' (without deleted ls)).1.store = (s.behind next ls).1.store ∧
      (s.replies next' (without deleted ls)).map (Option.map Answer.seen) =
        (without deleted (s.replies next ls)).map (Option.map Answer.seen) := by
  have hraised : s.raised = [] := by rw [raised, hs]
  have hlevel : Level s s := ⟨rfl, hraised, hraised⟩
  obtain ⟨hstore, hreplies⟩ := hlevel.run_without next next' hidle
  exact ⟨hstore.symm, hreplies.symm⟩

/-- The comment, the assignment that fails and the line that does not parse may be deleted from
between the first line and the last. -/
theorem run_without_idle_lines_between :
    let ls := [("x = 1", 1), ("// note", 2), ("x = y", 3), ("1 +", 4), ("print x", 5)]
    let deleted := fun i => decide (1 ≤ i ∧ i ≤ 3)
    let s := start 0
    (s.diagnostics.raised = #[] ∧ ∀ i, deleted i = true → s.IdleAt 7 ls i) ∧
      (s.behind 0 (without deleted ls)).1.store = (s.behind 7 ls).1.store ∧
      (s.replies 0 (without deleted ls)).map (Option.map Answer.seen) =
        (without deleted (s.replies 7 ls)).map (Option.map Answer.seen) := by
  intro ls deleted s
  have hidle : ∀ i, deleted i = true → s.IdleAt 7 ls i := by
    intro i hi source line hl
    have hbetween : 1 ≤ i ∧ i ≤ 3 := of_decide_eq_true hi
    obtain rfl | rfl | rfl : i = 1 ∨ i = 2 ∨ i = 3 := by omega
    all_goals
      cases hl
      decide +kernel
  exact ⟨⟨rfl, hidle⟩, run_without_idle_lines rfl 7 0 hidle⟩

end Session

end LineCalc
