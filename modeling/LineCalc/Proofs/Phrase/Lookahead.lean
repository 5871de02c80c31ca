import LineCalc.Proofs.Phrase.Completeness

/-!
# Reading looks one lexeme ahead

A reader that takes lexemes from the front of a list has not looked behind the first lexeme that it
leaves. So it takes the same lexemes, with the same tree, whatever stands behind that one. More
parentheses that may be open make no difference to a phrase that was read.

* `Phrase.LooksOneAhead p q` says so of a reader `p` and the readers `q i`, which may have been
  given a greater nesting. There are many of them so that what is taken is the same for all.
* One lemma for each operation on readers. An assignment starts with two lexemes that are looked at
  together (`AssignsFirst`), and the first one of them is always taken, so that one lexeme is enough
  for it too.
* `Phrase.looksOneAhead_statement` puts them together, by induction on the nesting.
-/

namespace LineCalc

theorem Reply.eq_read {r : Reply} {e : Expr} (h : r.outcome = .ok e) :
    r = .read r.rest e r.nodes := by
  obtain ⟨outcome, rest, nodes⟩ := r
  cases h
  rfl

/-- What was put on top of a tree is put there in front of any other lexemes too. -/
theorem Reply.grow_eq_read {r : Reply} {line : Nat} {make : Expr → Numbering → Expr × Numbering}
    {rest : List Lexeme} {e : Expr} {k : Numbering} (h : r.grow line make = .read rest e k) :
    ∃ f k', r = .read rest f k' ∧ ∀ us, (Reply.read us f k').grow line make = .read us e k := by
  obtain ⟨outcome, rest', nodes⟩ := r
  cases outcome with
  | error x => cases h
  | ok f =>
    by_cases hd : (make f nodes).1.depth ≤ nestingLimit
    · rw [grow_of_le rfl hd] at h
      cases h
      exact ⟨f, nodes, rfl, fun us => grow_of_le rfl hd⟩
    · rw [grow_of_lt rfl (Nat.lt_of_not_le hd)] at h
      cases h

theorem head?_append_congr {α : Type} (front : List α) {us vs : List α}
    (h : us.head? = vs.head?) : (front ++ us).head? = (front ++ vs).head? := by
  rw [List.head?_append, List.head?_append, h]

namespace Phrase

/-- Behind a lexeme, the next one decides whether an assignment starts with it. -/
theorem assignsFirst_append_congr {front us vs : List Lexeme} (hne : front ≠ [])
    (h : us.head? = vs.head?) (ha : AssignsFirst (front ++ us)) : AssignsFirst (front ++ vs) := by
  obtain ⟨name, line, l, more, heq⟩ := ha
  match front, hne with
  | [t], _ =>
    obtain ⟨rfl, rfl⟩ := List.cons.inj heq
    obtain ⟨more', rfl⟩ := List.head?_eq_some_iff.mp h.symm
    exact ⟨name, line, l, more', rfl⟩
  | t :: u :: front, _ =>
    simp only [List.cons_append, List.cons.injEq] at heq
    obtain ⟨rfl, rfl, -⟩ := heq
    exact ⟨name, line, l, front ++ vs, rfl⟩

variable {ι : Type} {p : Phrase} {q : ι → Phrase}

/-- What the reader takes, each of the other readers takes as well, as long as the lexeme behind it
is the same. -/
def LooksOneAhead (p : Phrase) (q : ι → Phrase) : Prop :=
  ∀ ⦃ts rest : List Lexeme⦄ ⦃e : Expr⦄ ⦃k k' : Numbering⦄, p.read ts k = .read rest e k' →
    ∃ taken, ts = taken ++ rest ∧
      ∀ i us, us.head? = rest.head? → (q i).read (taken ++ us) k = .read us e k'

/-- What was taken is a phrase, and it is taken in front of the same lexeme again. -/
theorem LooksOneAhead.exists_taken {c : Category} (hp : LooksOneAhead p q) (hs : Sound p c)
    {ts rest : List Lexeme} {e : Expr} {k k' : Numbering} (h : p.read ts k = .read rest e k') :
    ∃ taken, ts = taken ++ rest ∧ Derives c (tokens taken) e ∧
      ∀ i us, us.head? = rest.head? → (q i).read (taken ++ us) k = .read us e k' := by
  obtain ⟨taken, hts, hq⟩ := hp h
  obtain ⟨taken', hts', hd, -⟩ := hs ts k e (congrArg Reply.outcome h)
  rw [h] at hts'
  rw [← List.append_cancel_right (hts.symm.trans hts')] at hd
  exact ⟨taken, hts, hd, hq⟩

theorem looksOneAhead_operand {group : Nat → Phrase} {group' : ι → Nat → Phrase}
    (hg : ∀ line, LooksOneAhead (group line) fun i => group' i line) :
    LooksOneAhead (operand group) fun i => operand (group' i) := by
  intro ts rest e k k' h
  simp only [operand] at h ⊢
  unfold readOperand at h
  split at h
  · cases h
  · cases h
    exact ⟨[_], rfl, fun i us hus => rfl⟩
  · cases h
    exact ⟨[_], rfl, fun i us hus => rfl⟩
  · rename_i line ts
    obtain ⟨taken, rfl, hq⟩ := hg line h
    exact ⟨⟨.opening, line⟩ :: taken, rfl, hq⟩
  · cases h

/-- A group that was read had a closing parenthesis behind it. -/
theorem close_eq_read {r : Reply} {line : Nat} {rest : List Lexeme} {e : Expr} {k : Numbering}
    (h : close line r = .read rest e k) : ∃ l, r = .read (⟨.closing, l⟩ :: rest) e k := by
  obtain ⟨outcome, rest', nodes⟩ := r
  cases outcome with
  | error x => cases h
  | ok f =>
    simp only [close] at h
    split at h
    · cases h
      exact ⟨_, rfl⟩
    · cases h
    · cases h

theorem looksOneAhead_closed (hp : LooksOneAhead p q) (line : Nat) :
    LooksOneAhead (closed line p) fun i => closed line (q i) := by
  intro ts rest e k k' h
  obtain ⟨l, hr⟩ := close_eq_read h
  obtain ⟨taken, rfl, hq⟩ := hp hr
  refine ⟨taken ++ [⟨.closing, l⟩], by rw [List.append_assoc]; rfl, fun i us hus => ?_⟩
  have hread : (q i).read (taken ++ ⟨.closing, l⟩ :: us) k = _ := hq i _ rfl
  simp only [closed]
  rw [List.append_assoc, List.singleton_append, hread]
  rfl

theorem looksOneAhead_signed (hp : LooksOneAhead p q) :
    LooksOneAhead (signed p) fun i => signed (q i) := by
  intro ts
  simp only [read_signed]
  induction ts with
  | nil =>
    intro rest e k k' h
    obtain ⟨taken, hts, hq⟩ := hp h
    refine ⟨taken, hts, fun i us hus => ?_⟩
    rw [← hq i us hus, readSigned_of_head?]
    rw [head?_append_congr taken hus, ← hts]
    simp
  | cons t ts ih =>
    intro rest e k k' h
    unfold readSigned at h
    split at h
    · rename_i op hop
      obtain ⟨f, k'', hf, hgrow⟩ := Reply.grow_eq_read h
      obtain ⟨taken, rfl, hq⟩ := ih hf
      refine ⟨t :: taken, rfl, fun i us hus => ?_⟩
      rw [List.cons_append, readSigned]
      simp only [hop, hq i us hus]
      exact hgrow us
    · rename_i hop
      obtain ⟨taken, hts, hq⟩ := hp h
      refine ⟨taken, hts, fun i us hus => ?_⟩
      rw [← hq i us hus, readSigned_of_head?]
      rw [head?_append_congr taken hus, ← hts]
      rintro u ⟨⟩
      exact hop

/-- The rest of a chain ends in front of a lexeme that is no sign of its own. -/
theorem looksOneAhead_readChain {operator? : Token → Option Operator} (hp : LooksOneAhead p q)
    {left e : Expr} {ts rest : List Lexeme} {k k' : Numbering}
    (h : readChain operator? p left ts k = .read rest e k') :
    ∃ taken, ts = taken ++ rest ∧ ∀ i us, us.head? = rest.head? →
      readChain operator? (q i) left (taken ++ us) k = .read us e k' := by
  fun_induction readChain operator? p left ts k with
  | case1 left k =>
    cases h
    exact ⟨[], rfl, fun i us hus => readChain_of_head? (by simp [hus]) _⟩
  | case2 left k t ts hop =>
    cases h
    exact ⟨[], rfl, fun i us hus => readChain_of_head? (by simp [hus, hop]) _⟩
  | case3 left k t ts op hop r x hx =>
    rw [h] at hx
    cases hx
  | case4 left k t ts op hop r joined hj ih =>
    obtain ⟨f, k'', hf, hgrow⟩ := Reply.grow_eq_read (Reply.eq_read hj)
    obtain ⟨right, hts, hq⟩ := hp hf
    obtain ⟨taken, hrest, hchain⟩ := ih h
    refine ⟨t :: right ++ taken, by rw [hts, hrest]; simp, fun i us hus => ?_⟩
    have hhead := hrest ▸ head?_append_congr taken hus
    rw [List.append_assoc, List.cons_append, readChain]
    simp only [hop, hq i _ hhead, hgrow]
    exact hchain i us hus

theorem looksOneAhead_chain (operator? : Token → Option Operator) (hp : LooksOneAhead p q) :
    LooksOneAhead (chain operator? p) fun i => chain operator? (q i) := by
  intro ts rest e k k' h
  simp only [read_chain, Reply.andThen] at h ⊢
  split at h
  · rename_i x hx
    rw [h] at hx
    cases hx
  · rename_i left hl
    obtain ⟨first, hts, hq⟩ := hp (Reply.eq_read hl)
    obtain ⟨taken, hrest, hchain⟩ := looksOneAhead_readChain hp h
    refine ⟨first ++ taken, by rw [hts, hrest, List.append_assoc], fun i us hus => ?_⟩
    have hhead := hrest ▸ head?_append_congr taken hus
    rw [List.append_assoc, hq i _ hhead]
    exact hchain i us hus

theorem looksOneAhead_sum {group : Nat → Phrase} {group' : ι → Nat → Phrase}
    (hg : ∀ line, LooksOneAhead (group line) fun i => group' i line) :
    LooksOneAhead (sum group) fun i => sum (group' i) :=
  looksOneAhead_chain _ (looksOneAhead_chain _ (looksOneAhead_signed (looksOneAhead_operand hg)))

theorem looksOneAhead_group (nesting line : Nat) :
    LooksOneAhead (group nesting line) fun more => group (more + nesting) line := by
  induction nesting generalizing line with
  | zero =>
    intro ts rest e k k' h
    cases h
  | succ nesting ih => exact looksOneAhead_closed (looksOneAhead_sum ih) line

theorem looksOneAhead_expression (nesting : Nat) :
    LooksOneAhead (expression nesting) fun more => expression (more + nesting) :=
  looksOneAhead_sum (looksOneAhead_group nesting)

theorem looksOneAhead_assigned (hp : LooksOneAhead p q) (hs : Sound p .expression) :
    LooksOneAhead (assigned p) fun i => assigned (q i) := by
  intro ts rest e k k' h
  simp only [read_assigned] at h ⊢
  fun_induction readAssigned p ts k generalizing e k' with
  | case1 name line l ts k ih =>
    obtain ⟨f, k'', hf, hgrow⟩ := Reply.grow_eq_read h
    obtain ⟨taken, rfl, hq⟩ := ih hf
    refine ⟨⟨.identifier name, line⟩ :: ⟨.equals, l⟩ :: taken, rfl, fun i us hus => ?_⟩
    rw [List.cons_append, List.cons_append, readAssigned, hq i us hus]
    exact hgrow us
  | case2 ts k hts =>
    obtain ⟨taken, heq, hd, hq⟩ := hp.exists_taken hs h
    have hne : taken ≠ [] := fun hnil => hd.ne_nil (congrArg tokens hnil)
    refine ⟨taken, heq, fun i us hus => ?_⟩
    rw [← hq i us hus, readAssigned_of_not_assignsFirst]
    intro ha
    obtain ⟨name, line, l, more, hfront⟩ := assignsFirst_append_congr hne hus ha
    exact hts name line l more (heq.trans hfront)

theorem looksOneAhead_printed (hp : LooksOneAhead p q) :
    LooksOneAhead (printed p) fun i => printed (q i) := by
  intro ts rest e k k' h
  simp only [read_printed] at h ⊢
  unfold readPrinted at h
  split at h
  · rename_i line ts
    obtain ⟨f, k'', hf, hgrow⟩ := Reply.grow_eq_read h
    obtain ⟨taken, rfl, hq⟩ := hp hf
    refine ⟨⟨.print, line⟩ :: taken, rfl, fun i us hus => ?_⟩
    rw [List.cons_append, readPrinted, hq i us hus]
    exact hgrow us
  · rename_i hts
    obtain ⟨taken, heq, hq⟩ := hp h
    refine ⟨taken, heq, fun i us hus => ?_⟩
    rw [← hq i us hus, readPrinted_of_head?]
    rw [head?_append_congr taken hus, ← heq]
    rintro ⟨token, line⟩ ht rfl
    obtain ⟨more, rfl⟩ := List.head?_eq_some_iff.mp ht
    exact hts line more rfl

/-- **What is read as a statement is read as one in front of the same lexeme**, whatever stands
behind that and however many more parentheses may be open. -/
theorem looksOneAhead_statement (nesting : Nat) :
    LooksOneAhead (statement nesting) fun more => statement (more + nesting) :=
  looksOneAhead_printed
    (looksOneAhead_assigned (looksOneAhead_expression nesting) (sound_expression nesting))

end Phrase

end LineCalc
