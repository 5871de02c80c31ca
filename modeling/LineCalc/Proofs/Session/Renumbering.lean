import LineCalc.Proofs.Session.Alike
import LineCalc.Proofs.Session.Matching

/-!
# The numbers of nodes make no difference

A line is the same whatever number its first node has. Nodes are told apart by other numbers, and
nothing else changes: neither the answer with its messages, nor the session behind it, nor what the
trace tells apart from the numbers in it.

* `Event.unnumbered` is an event without the numbers in it. `Expr.account_unnumbered`: the numbers
  of a tree turn up in the numbers of its account and nowhere else.
* `Answer.seen` is what there is to see of an answer when numbers do not count.
* `Session.runLine_renumbered` is about one line in one session that may have errors pending.
* `Session.Alike` says that two sessions differ in numbers only, and `Session.Alike.runLine` that a
  line is the same in both of them.
-/

namespace LineCalc

/-! ## Accounts without numbers -/

/-- The event with the numbers of nodes in it set to zero. -/
def Event.unnumbered : Event → Event
  | raised error => raised error.unnumbered
  | visiting kind _ => visiting kind 0
  | e => e

theorem Event.toldAt_unnumbered (verbosity : Nat) (e : Event) :
    e.unnumbered.toldAt verbosity = e.toldAt verbosity := by
  cases e <;> rfl

/-- Numbers make no difference to how much of an account is told. -/
theorem Event.map_unnumbered_filter (verbosity : Nat) (events : List Event) :
    (events.filter (toldAt verbosity)).map unnumbered =
      (events.map unnumbered).filter (toldAt verbosity) := by
  rw [List.filter_map]
  congr 1
  exact List.filter_congr fun e _ => (e.toldAt_unnumbered verbosity).symm

theorem Effect.told_unnumbered (x : Effect) : x.unnumbered.told = x.told.map Event.unnumbered := by
  simp only [told, unnumbered, List.map_map]
  rfl

namespace Expr

/-- The numbers of a tree turn up in its account as numbers of nodes and nowhere else. -/
theorem account_unnumbered (e : Expr) (s : Store) :
    e.unnumbered.account s = (e.account s).map Event.unnumbered := by
  induction e generalizing s with
  | literal value id => rfl
  | var name id =>
    simp only [unnumbered, account, List.map_cons, ← Effect.told_unnumbered,
      Effect.unnumbered_read]
    rfl
  | unary op operand id ih =>
    simp only [unnumbered, account, effect_unnumbered, ih, List.map_cons, List.map_append,
      ← Effect.told_unnumbered, Effect.unnumbered_settle_unary]
    rfl
  | binary op left right id ihl ihr =>
    simp only [unnumbered, account, effect_unnumbered, ihl, ihr, List.map_cons, List.map_append,
      ← Effect.told_unnumbered, Effect.unnumbered_settle_binary]
    rfl
  | assign target value id iht ihv =>
    cases target with
    | var name targetId =>
      simp only [unnumbered, account, effect_unnumbered, ihv, List.map_cons]
      congr 1
      by_cases hn : s.contains name = true
      · rw [if_pos hn, if_pos hn, List.map_append]
        congr 1
        by_cases he : (value.effect s).errors = []
        · rw [if_pos he, if_pos (Effect.unnumbered_errors_eq_nil_iff.mpr he),
            ← Effect.told_unnumbered, Effect.unnumbered_write]
          rfl
        · rw [if_neg he, if_neg (mt Effect.unnumbered_errors_eq_nil_iff.mp he)]
          rfl
      · rw [if_neg hn, if_neg hn]
        rfl
    | _ => rfl
  | print operand id ih =>
    simp only [unnumbered, account, ih, List.map_cons]
    rfl

/-- Trees that are alike have the same account apart from numbers. -/
theorem Alike.map_account {e f : Expr} (h : e.Alike f) (s : Store) :
    (e.account s).map Event.unnumbered = (f.account s).map Event.unnumbered := by
  rw [← account_unnumbered, ← account_unnumbered]
  exact congrArg (Expr.account · s) h

end Expr

/-! ## What there is to see of an answer -/

/-- What there is to see of an answer when numbers do not count: the answer without the numbers in
its errors, and the messages of these. -/
def Answer.seen (a : Answer) : Answer × List String := (a.unnumbered, a.errors.map Error.message)

/-- The errors that a line can raise have the same messages if they differ in numbers only. -/
theorem Error.map_message_eq {xs ys : List Error} (hx : ∀ x ∈ xs, x.OfLine)
    (h : xs.map Error.unnumbered = ys.map Error.unnumbered) :
    xs.map Error.message = ys.map Error.message := by
  induction xs generalizing ys with
  | nil =>
    cases ys with
    | nil => rfl
    | cons y ys => cases h
  | cons x xs ih =>
    cases ys with
    | nil => cases h
    | cons y ys =>
      obtain ⟨hx, hxs⟩ := List.forall_mem_cons.mp hx
      simp only [List.map_cons, List.cons.injEq] at h ⊢
      exact ⟨hx.message_eq h.1, ih hxs h.2⟩

/-! ## Lines -/

/-- A line is read alike whatever the number of its first node is. -/
theorem readLine_renumbered (source : String) (line : Nat) (next next' : NodeId) :
    AlikeOutcomes (readLine source line next).outcome (readLine source line next').outcome :=
  readLine_alike rfl next next'

namespace Session

variable {s s' t t' : Session}

theorem Matches.level (h : Matches s s') (hs : s.raised = []) : Level s s' :=
  ⟨h.store, hs, h.raised.symm.trans hs⟩

theorem Level.matches (h : Level s s') : Matches s s' :=
  ⟨h.store, h.raised.trans h.raised'.symm⟩

/-- In sessions that are level, lines with the same tokens have answers with the same messages. -/
theorem Level.answer?_seen {source source' : String} {line : Nat} (h : Level s s')
    (ht : tokenize source line = tokenize source' line) (next next' : NodeId) :
    (s.runLine source line next).answer?.map Answer.seen =
      (s'.runLine source' line next').answer?.map Answer.seen := by
  have ha := (h.runLine ht next next').1
  have hline : ∀ a, (s.runLine source line next).answer? = some a → ∀ x ∈ a.errors, x.OfLine :=
    fun _ => ofLine_of_runLine h.raised
  generalize (s.runLine source line next).answer? = reply at ha hline
  generalize (s'.runLine source' line next').answer? = reply' at ha
  cases reply with
  | none =>
    cases reply' with
    | none => rfl
    | some b => cases ha
  | some a =>
    cases reply' with
    | none => cases ha
    | some b =>
      have hab : a.unnumbered = b.unnumbered := Option.some.inj ha
      have hmessages := Error.map_message_eq (hline a rfl) (congrArg Answer.errors hab)
      simp only [Option.map_some, Answer.seen, hab, hmessages]

theorem declareTargets_eq {e f : Expr} (h : e.targets = f.targets) (s : Session) :
    s.declareTargets e = s.declareTargets f := by
  unfold declareTargets
  rw [h]

/-- **The number of its first node makes no difference to a line.** -/
theorem runLine_renumbered (s : Session) (source : String) (line : Nat) (next next' : NodeId) :
    (s.runLine source line next).answer?.map Answer.seen =
        (s.runLine source line next').answer?.map Answer.seen ∧
      Matches (s.runLine source line next).session (s.runLine source line next').session := by
  by_cases hp : s.raised = []
  · have hlevel := (Matches.refl s).level hp
    exact ⟨hlevel.answer?_seen rfl next next', (hlevel.runLine rfl next next').2.matches⟩
  · have ho := readLine_renumbered source line next next'
    generalize hx : (readLine source line next).outcome = x at ho
    generalize hy : (readLine source line next').outcome = y at ho
    cases ho with
    | blank =>
      rw [(runLine_of_blank hx).1, (runLine_of_blank hx).2, (runLine_of_blank hy).1,
        (runLine_of_blank hy).2]
      exact ⟨rfl, .refl s⟩
    | error =>
      rw [(runLine_of_error hx).1, (runLine_of_error hx).2, (runLine_of_error hy).1,
        (runLine_of_error hy).2]
      exact ⟨rfl, .refl _⟩
    | @statement e f hef =>
      -- Behind the gate neither tree is evaluated.
      have hr : (s.declareTargets f).raised ≠ [] := (raised_declareTargets s f).symm ▸ hp
      have he := evaluate_of_pending hr e
      have hf := evaluate_of_pending hr f
      rw [(runLine_of_statement hx).1, (runLine_of_statement hx).2, (runLine_of_statement hy).1,
        (runLine_of_statement hy).2, declareTargets_eq hef.targets_eq, he.value, he.raised,
        hf.value, hf.raised, hef.isAssign_eq]
      exact ⟨rfl, he.store.trans hf.store.symm, rfl⟩

/-- The number of its first node turns up in the account of a line as numbers of nodes only. -/
theorem account_renumbered (s : Session) (source : String) (line : Nat) (next next' : NodeId) :
    (s.account source line next).map Event.unnumbered =
      (s.account source line next').map Event.unnumbered := by
  have ho := readLine_renumbered source line next next'
  unfold account
  generalize (readLine source line next).outcome = x at ho ⊢
  generalize (readLine source line next').outcome = y at ho ⊢
  cases ho with
  | blank => rfl
  | error => rfl
  | @statement e f hef =>
    simp only [List.map_append, hef.targets_eq, declareTargets_eq hef.targets_eq]
    congr 1
    split
    · rw [List.map_cons, List.map_cons, hef.map_account]
    · rfl

/-! ## Sessions that differ in numbers -/

/-- Two sessions that differ in nothing but the numbers of nodes that their traces tell. -/
structure Alike (s s' : Session) : Prop extends Matches s s' where
  verbosity : s.verbosity = s'.verbosity
  trace : s.trace.map Event.unnumbered = s'.trace.map Event.unnumbered

namespace Alike

theorem refl (s : Session) : Alike s s := ⟨.refl s, rfl, rfl⟩

/-- Traces stay alike as long as what they are told is the same apart from numbers. -/
theorem of_tells {events events' : List Event} (h : Alike s s') (ht : Tells s t events)
    (ht' : Tells s' t' events') (he : events.map Event.unnumbered = events'.map Event.unnumbered)
    (hm : Matches t t') : Alike t t' := by
  refine ⟨hm, by rw [ht.verbosity, ht'.verbosity, h.verbosity], ?_⟩
  rw [ht.trace, ht'.trace, List.map_append, List.map_append, Event.map_unnumbered_filter,
    Event.map_unnumbered_filter, he, h.trace, h.verbosity]

/-- **A line is the same in sessions that are alike**, whatever the numbers of its nodes, and they
are alike behind it. -/
theorem runLine (h : Alike s s') (source : String) (line : Nat) (next next' : NodeId) :
    (s.runLine source line next).answer?.map Answer.seen =
        (s'.runLine source line next').answer?.map Answer.seen ∧
      Alike (s.runLine source line next).session (s'.runLine source line next').session := by
  obtain ⟨ha, hs⟩ := h.toMatches.runLine source line next
  obtain ⟨ha', hs'⟩ := runLine_renumbered s' source line next next'
  refine ⟨ha ▸ ha', h.of_tells (runLine_tells s source line next)
    (runLine_tells s' source line next') ?_ ⟨hs.store.trans hs'.store, hs.raised.trans hs'.raised⟩⟩
  rw [h.toMatches.account_eq, account_renumbered s' source line next next']

end Alike

end Session

end LineCalc
