import Mathlib.Control.Monad.Basic
import LineCalc.Proofs.Session.Alike
import LineCalc.Proofs.Session.Footprint

/-!
# Lines that are run again

A line that assigns to none of the variables that its arithmetic reads comes to the same when it is
run again. What the first run leaves behind, declarations included, is not seen by the second one,
and the second one leaves the same behind.

* `Session.Commits.eq` and `Session.Declares.eq`: storing the same value again changes nothing, and
  neither does declaring the same names again.
* `Session.get?_behind`: a variable that a tree does not assign to is the same behind the line.
* `exists_readLine_again`: what holds a statement is read as that statement under any line number.
* `Session.evaluate_again` is about one tree, and `Session.runLine_again` about lines. Trees without
  assignments need no declarations, and leave the whole store alone.
-/

namespace LineCalc

/-! ## Reading again -/

/-- The line number and the numbers of nodes make no difference to whether a text holds a statement,
or to which one it holds. -/
theorem exists_readLine_again {source : String} {line : Nat} {next : NodeId} {e : Expr}
    (h : (readLine source line next).outcome = .ok (some e)) (line' : Nat) (next' : NodeId) :
    ∃ f, e.Alike f ∧ (readLine source line' next').outcome = .ok (some f) := by
  obtain ⟨ts, ht, -, -⟩ := derives_of_readLine h
  rw [readLine_of_tokenize ht] at h
  obtain ⟨hd, hdepth, hnests⟩ := derives_of_readLexemes h
  obtain ⟨us, hus, rfl⟩ := tokenizeChars_eq_ok_iff.mp ht
  have ht' : tokenize source line' = _ := tokenizeChars_eq_ok_iff.mpr ⟨us, hus, rfl⟩
  have htokens : ∀ l, tokens (us.map (Lexeme.mk · l)) = us := fun l =>
    List.map_map.trans (List.map_id us)
  rw [readLine_of_tokenize ht']
  rw [htokens] at hd hnests
  rw [← htokens line'] at hd hnests
  rcases readLexemes_of_derives hd with ⟨-, -, f, hf, ho⟩ | ⟨hlimit, -⟩
  · exact ⟨f, hf.symm, ho⟩
  · exact absurd ⟨hdepth, hnests⟩ hlimit

namespace Expr

variable {e : Expr}

/-- Arithmetic means the same in stores that its variables read alike in. -/
theorem Arithmetic.meaning_eq (h : e.Arithmetic) {s t : Store} (hst : s.ReadAlike e.names t) :
    e.denote s.environment = e.denote t.environment ∧
      e.faults s.environment = e.faults t.environment := by
  have hsame := e.sameOn_effect (fun _ hn => hn) hst
  rw [h.effect_eq, h.effect_eq] at hsame
  exact ⟨hsame.value, hsame.errors⟩

theorem targets_eq_nil_of_isAssign (h : ∀ node ∈ e.preorder, node.isAssign = false) :
    e.targets = [] := by
  refine List.filterMap_eq_nil_iff.mpr fun node hnode => ?_
  have hn := h node hnode
  cases node with
  | assign => cases hn
  | _ => rfl

/-- A tree that assigns to no variable leaves the store alone. -/
theorem store_effect_of_targets (h : e.targets = []) (s : Store) : (e.effect s).store = s :=
  Store.ext_get? fun _ => e.get?_effect s (h ▸ List.not_mem_nil)

end Expr

namespace Session

variable {s : Session} {e : Expr}

/-! ## Writing again -/

/-- Storing a value again changes nothing. -/
theorem Commits.eq {before after behind : Store} {names : List String} {v : Binary64}
    (h : Commits before after names v) (h' : Commits after behind names v) : behind = after := by
  apply Store.ext_get?
  intro name
  rw [h' name]
  by_cases hn : name ∈ names
  · rw [if_pos hn, h name, if_pos hn]
  · rw [if_neg hn]

/-- Declaring names again changes nothing. -/
theorem Declares.eq {before after behind : Store} {names : List String}
    (h : Declares before after names) (h' : Declares after behind names) : behind = after := by
  apply Store.ext_get?
  intro name
  rw [h' name, h name]
  by_cases hn : name ∈ names
  · rw [if_pos hn]
    cases before.get? name <;> rfl
  · rw [if_neg hn, Option.or_none, Option.or_none]

/-- A variable that a tree does not assign to is the same behind the declarations and the
evaluation of the tree. -/
theorem get?_behind (s : Session) {name : String} (hn : name ∉ e.targets) :
    ((s.declareTargets e).evaluate e).2.store.get? name = s.store.get? name := by
  have hdeclared : (s.declareTargets e).store.get? name = s.store.get? name := by
    rw [get?_declareTargets, if_neg hn, Option.or_none]
  rw [store_evaluate]
  split
  · rw [e.get?_effect _ hn, hdeclared]
  · exact hdeclared

/-! ## Evaluating again -/

/-- **A statement comes to the same when it is evaluated again**, if it assigns to none of the
variables that its arithmetic reads. -/
theorem evaluate_again (hs : s.raised = []) (h : e.Statement)
    (hfeed : ∀ name ∈ e.targets, name ∉ e.body.names) {v w : Binary64} {t u : Session}
    (ht : (s.declareTargets e).evaluate e = (v, t))
    (hu : (t.reset.declareTargets e).evaluate e = (w, u)) :
    w = v ∧ u.raised = t.raised ∧ u.store = t.store := by
  obtain ⟨hv, hr⟩ := evaluate_declareTargets hs h
  obtain ⟨hw, hr'⟩ := evaluate_declareTargets (raised_reset t) h
  rw [ht] at hv hr
  rw [hu] at hw hr'
  -- What the arithmetic reads is as the first run found it.
  have hread : (s.declareTargets e).store.ReadAlike e.body.names
      (t.reset.declareTargets e).store := by
    intro name hname
    have hn : name ∉ e.targets := fun hm => hfeed name hm hname
    have hbehind := get?_behind s hn
    rw [ht] at hbehind
    rw [get?_declareTargets, get?_declareTargets, store_reset, hbehind]
  obtain ⟨hdenote, hfaults⟩ := h.body_arithmetic.meaning_eq hread
  rw [environment_declareTargets, environment_declareTargets] at hdenote hfaults
  have hvalue : w = v := hw.trans (hdenote.symm.trans hv.symm)
  have hraised : u.raised = t.raised := by rw [hr', hr, hfaults]
  refine ⟨hvalue, hraised, ?_⟩
  have hfirst := commits_or_declares h ht
  have hsecond := commits_or_declares h hu
  rw [hraised, hvalue] at hsecond
  by_cases hok : t.raised = []
  · rw [if_pos hok] at hfirst hsecond
    exact hfirst.eq hsecond
  · rw [if_neg hok] at hfirst hsecond
    exact hfirst.eq hsecond

/-- Without an assignment to a variable, an evaluation leaves the store alone. -/
theorem store_evaluate_of_targets (h : e.targets = []) (s : Session) :
    (s.evaluate e).2.store = s.store := by
  rw [store_evaluate, Expr.store_effect_of_targets h, ite_self]

/-- **A line that does not feed on itself comes to the same when it is run again.** With an empty
channel in front of the first run, both runs have the same value and the same errors up to the
numbers of nodes, and agree on whether to show the value; the variables behind the second run are
those behind the first. The number of the line may be another one. A tree without assignments
leaves the store alone in every session, and if it is evaluated with an empty channel, then
evaluating it again behind a reset yields the same value and the same errors. -/
theorem runLine_again :
    (∀ (s : Session) (source : String) (line line' : Nat) (next next' : NodeId) (e : Expr),
      s.raised = [] → (readLine source line next).outcome = .ok (some e) →
      (∀ name ∈ e.targets, name ∉ e.body.names) →
      let first := s.runLine source line next
      let second := first.session.runLine source line' next'
      ∃ a b, first.answer? = some a ∧ second.answer? = some b ∧
        b.value = a.value ∧ b.echo = a.echo ∧
        b.errors.map Error.unnumbered = a.errors.map Error.unnumbered ∧
        second.session.store = first.session.store) ∧
    ∀ e : Expr, (∀ node ∈ e.preorder, node.isAssign = false) → ∀ s : Session,
      (s.evaluate e).2.store = s.store ∧
      (s.raised = [] →
        ((s.evaluate e).2.reset.evaluate e).1 = (s.evaluate e).1 ∧
          ((s.evaluate e).2.reset.evaluate e).2.raised = (s.evaluate e).2.raised) := by
  refine ⟨fun s source line line' next next' e hs he hfeed => ?_, fun e he s => ?_⟩
  · obtain ⟨ts, -, hd, -⟩ := derives_of_readLine he
    obtain ⟨f, hf, he'⟩ := exists_readLine_again he line' next'
    rcases ht : (s.declareTargets e).evaluate e with ⟨v, t⟩
    rcases hu : (t.reset.declareTargets e).evaluate e with ⟨w, u⟩
    obtain ⟨hvalue, hraised, hstore⟩ := evaluate_again hs hd.shape hfeed ht hu
    obtain ⟨ha, hsession⟩ := runLine_of_statement (s := s) he
    obtain ⟨hb, hsession'⟩ := runLine_of_statement (s := t.reset) he'
    rw [ht] at ha hsession
    -- The second run has a tree of its own, which is like that of the first.
    have hlevel : Level t.reset t.reset := ⟨rfl, rfl, rfl⟩
    obtain ⟨hvalue', hstore', hraised'⟩ := (hlevel.declareTargets hf.symm).evaluate hf.symm
    rw [hu] at hvalue' hstore' hraised'
    dsimp only
    rw [hsession]
    refine ⟨_, _, ha, hb, hvalue'.trans hvalue, ?_, ?_, ?_⟩
    · exact congrArg Bool.not hf.isAssign_eq.symm
    · exact hraised'.trans (congrArg _ hraised)
    · rw [hsession']
      exact hstore'.trans hstore
  · have htargets := Expr.targets_eq_nil_of_isAssign he
    have hstore := store_evaluate_of_targets htargets s
    refine ⟨hstore, fun hs => ?_⟩
    have hfirst := evaluate_yields hs e
    have hagain := evaluate_yields (raised_reset (s.evaluate e).2) e
    rw [store_reset, hstore] at hagain
    exact ⟨hagain.value.trans hfirst.value.symm,
      hagain.raised.trans (by rw [raised_reset, hfirst.raised, hs])⟩

/-- A variable with a value that is assigned to twice, and two errors below the assignments. The
second run is in another line. -/
theorem runLine_again_of_faults :
    let source := "x = z = x = y / 0"
    let e : Expr := .assign (.var "x" 7) (.assign (.var "z" 5) (.assign (.var "x" 3)
      (.binary .div (.var "y" 0) (.literal (.zero false) 1) 2) 4) 6) 8
    let s : Session := { start 0 with store := Store.empty.put "x" (.assigned (.infinite true)) }
    let first := s.runLine source 1 0
    let second := first.session.runLine source 2 9
    (s.raised = [] ∧ (readLine source 1 0).outcome = .ok (some e) ∧
      (∀ name ∈ e.targets, name ∉ e.body.names) ∧
      ∀ node ∈ e.body.preorder, node.isAssign = false) ∧
    (∃ a b, first.answer? = some a ∧ second.answer? = some b ∧ b.value = a.value ∧
      b.echo = a.echo ∧ b.errors.map Error.unnumbered = a.errors.map Error.unnumbered ∧
      second.session.store = first.session.store) ∧
    (s.evaluate e.body).2.store = s.store ∧
    ((s.evaluate e.body).2.reset.evaluate e.body).2.raised =
      [.evaluation (.undefined "y" 0), .evaluation (.divisionByZero 2)] := by
  intro source e s first second
  have he : (readLine source 1 0).outcome = .ok (some e) := by decide +kernel
  have hfeed : ∀ name ∈ e.targets, name ∉ e.body.names := by decide
  have hbody : ∀ node ∈ e.body.preorder, node.isAssign = false := by decide
  have hraised : (s.evaluate e.body).2.raised =
      [.evaluation (.undefined "y" 0), .evaluation (.divisionByZero 2)] := by decide +kernel
  obtain ⟨hline, htree⟩ := runLine_again
  obtain ⟨hstore, hagain⟩ := htree e.body hbody s
  exact ⟨⟨rfl, he, hfeed, hbody⟩, hline s source 1 2 0 9 e rfl he hfeed, hstore,
    (hagain rfl).2.trans hraised⟩

end Session

end LineCalc
