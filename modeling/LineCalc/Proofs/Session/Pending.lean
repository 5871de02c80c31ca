import LineCalc.Proofs.Session.Account

/-!
# Errors from before

A tree is evaluated on the way through a greater one, with the errors pending that its siblings have
raised. An assignment counts the errors in front of its value and behind it, and stores the value if
there are no more of them. What was pending before is on both sides of that comparison, so it makes
no difference to anything that a tree does.

* `Session.withRaised` is a session with other errors pending. Together with the store, what the
  trace has told and the verbosity, the errors are all there is to a session.
* `Session.eval_withRaised` compares the evaluation of a tree with any errors pending and with none.
-/

namespace LineCalc

namespace Session

variable {s t : Session}

/-- The session with the given errors pending in place of its own. -/
def withRaised (s : Session) (errors : List Error) : Session :=
  { s with diagnostics := { s.diagnostics with raised := errors.toArray } }

@[simp] theorem store_withRaised (s : Session) (errors : List Error) :
    (s.withRaised errors).store = s.store := rfl

@[simp] theorem raised_withRaised (s : Session) (errors : List Error) :
    (s.withRaised errors).raised = errors := List.toList_toArray

@[simp] theorem trace_withRaised (s : Session) (errors : List Error) :
    (s.withRaised errors).trace = s.trace := rfl

@[simp] theorem verbosity_withRaised (s : Session) (errors : List Error) :
    (s.withRaised errors).verbosity = s.verbosity := rfl

/-- Two sessions with the same variables, errors and trace at one verbosity are equal. -/
theorem ext_views (hstore : s.store = t.store) (hraised : s.raised = t.raised)
    (htrace : s.trace = t.trace) (hverbosity : s.verbosity = t.verbosity) : s = t := by
  obtain ⟨store, raised, verbosity, trace⟩ := s
  obtain ⟨store', raised', verbosity', trace'⟩ := t
  have hr : raised = raised' := Array.toList_inj.mp hraised
  have ht : trace = trace' := Array.toList_inj.mp htrace
  cases hstore
  cases hverbosity
  rw [hr, ht]

/-- **Errors from before make no difference.** With whatever errors pending, a tree has the value
that it has with none, leaves the same variables behind and tells the same. The errors that it
raises are the same too, and stand behind those that were pending. -/
theorem eval_withRaised (e : Expr) (s : Session) (pending : List Error) :
    let alone := eval e (s.withRaised [])
    let behind := eval e (s.withRaised pending)
    behind.1 = alone.1 ∧ behind.2.store = alone.2.store ∧
      behind.2.raised = pending ++ alone.2.raised ∧
      behind.2 = alone.2.withRaised (pending ++ alone.2.raised) := by
  intro alone behind
  -- Both evaluations come to one effect and tell one account, that of the tree in the store of `s`.
  have ha : Yields _ (e.effect s.store) alone := eval_yields e (s.withRaised [])
  have hb : Yields _ (e.effect s.store) behind := eval_yields e (s.withRaised pending)
  have hta : Tells _ alone.2 (e.account s.store) := eval_tells e (s.withRaised [])
  have htb : Tells _ behind.2 (e.account s.store) := eval_tells e (s.withRaised pending)
  have hstore : behind.2.store = alone.2.store := hb.store.trans ha.store.symm
  have hraised : behind.2.raised = pending ++ alone.2.raised := by
    rw [hb.raised, ha.raised, raised_withRaised, raised_withRaised, List.nil_append]
  refine ⟨hb.value.trans ha.value.symm, hstore, hraised, ext_views hstore ?_ ?_ ?_⟩
  · rw [hraised, raised_withRaised]
  · exact htb.trace.trans hta.trace.symm
  · exact htb.verbosity.trans hta.verbosity.symm

end Session

end LineCalc
