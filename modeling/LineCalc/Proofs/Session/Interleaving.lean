import LineCalc.Proofs.Session.Renumbering

/-!
# Sessions side by side

Any number of sessions can be in use at a time, and their lines may come in any order. All of them
take the numbers for their nodes from one counter, which moves on with every line, and nothing but
these numbers tells a session that there are others.

* `Sessions` are the sessions and the counter. `Sessions.runLine` handles a line of one of them,
  `Sessions.replies` and `Sessions.behind` a list of lines.
* `Sessions.ofSession` picks what belongs to one session from a list for all of them.
* `Sessions.alike_alone` compares a run with the run of one session alone: `Sessions.runLine_same`
  and `Sessions.runLine_other` are its two steps.
* `Sessions.run_alone` is about every session of a run.
-/

namespace LineCalc

/-- Sessions with a common counter of nodes. -/
structure Sessions (ι : Type) where
  session : ι → Session
  /-- The number for the next node, whichever session makes it. -/
  next : NodeId

namespace Sessions

variable {ι α : Type} [DecidableEq ι]

/-- Handles a line in one of the sessions. -/
def runLine (w : Sessions ι) (i : ι) (source : String) (line : Nat) :
    Option Answer × Sessions ι :=
  let turn := (w.session i).runLine source line w.next
  (turn.answer?, ⟨fun j => if j = i then turn.session else w.session j, turn.next⟩)

/-- The answers to lines for several sessions, each with the session that gave it. -/
def replies (w : Sessions ι) : List (ι × String × Nat) → List (ι × Option Answer)
  | [] => []
  | (i, source, line) :: more =>
    (i, (w.runLine i source line).1) :: replies (w.runLine i source line).2 more

/-- The sessions behind lines for several of them. -/
def behind (w : Sessions ι) : List (ι × String × Nat) → Sessions ι
  | [] => w
  | (i, source, line) :: more => behind (w.runLine i source line).2 more

/-! ## One session among others -/

/-- What belongs to one session, in order. -/
def ofSession (i : ι) (xs : List (ι × α)) : List α :=
  (xs.filter fun x => x.1 = i).map Prod.snd

variable {i j : ι}

theorem ofSession_cons_same (x : α) (xs : List (ι × α)) :
    ofSession i ((i, x) :: xs) = x :: ofSession i xs :=
  congrArg (List.map Prod.snd) (List.filter_cons_of_pos (decide_eq_true rfl))

theorem ofSession_cons_other (h : j ≠ i) (x : α) (xs : List (ι × α)) :
    ofSession i ((j, x) :: xs) = ofSession i xs :=
  congrArg (List.map Prod.snd) (List.filter_cons_of_neg (ne_true_of_eq_false (decide_eq_false h)))

theorem runLine_same (w : Sessions ι) (i : ι) (source : String) (line : Nat) :
    (w.runLine i source line).2.session i =
      ((w.session i).runLine source line w.next).session :=
  if_pos rfl

theorem runLine_other (h : i ≠ j) (w : Sessions ι) (source : String) (line : Nat) :
    (w.runLine j source line).2.session i = w.session i :=
  if_neg h

/-- A session among others runs along with a session alone that is alike. -/
theorem alike_alone {w : Sessions ι} {s : Session} (h : Session.Alike (w.session i) s)
    (calls : List (ι × String × Nat)) (next : NodeId) :
    (ofSession i (w.replies calls)).map (Option.map Answer.seen) =
        (s.replies next (ofSession i calls)).map (Option.map Answer.seen) ∧
      Session.Alike ((w.behind calls).session i) (s.behind next (ofSession i calls)).1 := by
  induction calls generalizing w s next with
  | nil => exact ⟨rfl, h⟩
  | cons call calls ih =>
    obtain ⟨j, source, line⟩ := call
    by_cases hj : j = i
    · subst hj
      obtain ⟨ha, hs⟩ := h.runLine source line w.next next
      rw [← runLine_same w j source line] at hs
      obtain ⟨hmore, hbehind⟩ := ih hs (s.runLine source line next).next
      simp only [replies, ofSession_cons_same, Session.replies, List.map_cons, hmore]
      exact ⟨congrArg (· :: _) ha, hbehind⟩
    · -- The other sessions move the counter on, and that is all.
      have hs : Session.Alike ((w.runLine j source line).2.session i) s :=
        (runLine_other (Ne.symm hj) w source line).symm ▸ h
      simp only [replies, ofSession_cons_other hj]
      exact ih hs next

/-- **Sessions do not interfere.** Whatever lines are run in whatever sessions and in whatever
order, each session gives the answers that it gives to its own lines alone, messages included, and
ends as it does alone, whichever number the nodes start from there. All that differs is the numbers
of nodes: those in errors, in the trace, and in the trees that the lines are read as. -/
theorem run_alone (w : Sessions ι) (calls : List (ι × String × Nat)) (i : ι) (next : NodeId) :
    (ofSession i (w.replies calls)).map (Option.map Answer.seen) =
        ((w.session i).replies next (ofSession i calls)).map (Option.map Answer.seen) ∧
      ((w.behind calls).session i).store =
        ((w.session i).behind next (ofSession i calls)).1.store ∧
      Session.Alike ((w.behind calls).session i)
        ((w.session i).behind next (ofSession i calls)).1 ∧
      ∀ source line n n', AlikeOutcomes (readLine source line n).outcome
        (readLine source line n').outcome := by
  obtain ⟨hreplies, hbehind⟩ := alike_alone (.refl (w.session i)) calls next
  exact ⟨hreplies, hbehind.store, hbehind, readLine_renumbered⟩

end Sessions

end LineCalc
