import LineCalc.Proofs.Phrase.Soundness

/-!
# Phrases are read

The lexemes of a phrase are read as its tree, whatever follows, as long as what follows cannot be
part of the phrase. Only the depth of the tree can stand against it: a tree beyond the limit is
refused as too deep, and there is no other error.

A chain of operators is read in a loop, so a part of a chain is followed by a sign that goes on with
it, and its reader does not stop there. The statement about a chain is therefore about the loop: to
read its lexemes is to arrive in the loop with its tree.

* `Reply.Continues r e next`: the reply `r` is what `next` says from a tree like `e` on, or the
  refusal of `e`. `Reply.Continues.grow` and `Reply.Continues.trans` put such facts together.
* One lemma for each operation on readers, such as `Phrase.signed_continues`. For a chain there are
  two: `Phrase.chain_continues` is about its first phrase, and `Phrase.link_continues` about one
  more sign and the phrase behind it.
* `Phrase.ofCategory` is the reader for a kind of phrases, `Phrase.proceed` what it does when a
  phrase is read, and `Category.Ends` what may follow.
* `Derives.read_continues` is the statement for all kinds, by induction on the derivation.
-/

namespace LineCalc

/-- The reply with a tree that was read in front of `rest`. -/
def Reply.read (rest : List Lexeme) (e : Expr) (k : Numbering) : Reply := ⟨.ok e, rest, k⟩

/-- The reply goes on as `next` says from a tree like the given one; a tree beyond the limit is
refused. -/
inductive Reply.Continues (r : Reply) (e : Expr) (next : Expr → Numbering → Reply) : Prop
  | proceeds (f : Expr) (k : Numbering) (hd : e.depth ≤ nestingLimit) (hf : f.Alike e)
      (hr : r = next f k)
  | refuses (line : Nat) (hd : nestingLimit < e.depth) (hr : r.outcome = .error (.tooDeep line))

namespace Reply.Continues

variable {r : Reply} {e e' : Expr} {next next' : Expr → Numbering → Reply} {rest : List Lexeme}

/-- What goes on from a tree to a greater one goes on from there. -/
theorem trans (h : r.Continues e next) (hd : e.depth ≤ e'.depth)
    (h' : ∀ f k, f.Alike e → (next f k).Continues e' next') : r.Continues e' next' := by
  cases h with
  | proceeds f k hle hf hr => exact hr ▸ h' f k hf
  | refuses line hlt hr => exact .refuses line (by omega) hr

theorem congr (h : r.Continues e next) (h' : ∀ f k, next f k = next' f k) :
    r.Continues e next' := by
  cases h with
  | proceeds f k hle hf hr => exact .proceeds f k hle hf (hr.trans (h' f k))
  | refuses line hlt hr => exact .refuses line hlt hr

/-- A node on top of what was read. -/
theorem grow (h : r.Continues e (read rest)) (line : Nat)
    (make : Expr → Numbering → Expr × Numbering) (hd : e.depth ≤ e'.depth)
    (hmake : ∀ f k, f.Alike e → (make f k).1.Alike e') :
    (r.grow line make).Continues e' (read rest) := by
  cases h with
  | proceeds f k hle hf hr =>
    have hm := hmake f k hf
    subst hr
    by_cases hle' : e'.depth ≤ nestingLimit
    · refine .proceeds _ (make f k).2 hle' hm ?_
      exact Reply.grow_of_le rfl (hm.depth_eq ▸ hle')
    · have hlt : nestingLimit < e'.depth := Nat.lt_of_not_le hle'
      refine .refuses line hlt ?_
      rw [Reply.grow_of_lt rfl (by rw [← hm.depth_eq] at hlt; exact hlt)]
  | refuses l hlt hr =>
    refine .refuses l (by omega) ?_
    simp only [Reply.grow, hr]

end Reply.Continues

namespace Phrase

variable {operator? : Token → Option Operator} {p : Phrase} {e f : Expr} {rest : List Lexeme}

/-! ## The operations on readers -/

/-- A chain stops where no sign of its own follows. -/
theorem readChain_of_head? (h : ∀ t ∈ rest.head?, operator? t.token = none) (k : Numbering) :
    readChain operator? p e rest k = .read rest e k := by
  cases rest with
  | nil => simp only [readChain, Reply.read]
  | cons t ts =>
    have ht : operator? t.token = none := h t rfl
    unfold readChain
    simp only [ht, Reply.read]

/-- A chain goes on with the next phrase behind a sign of its own. -/
theorem readChain_continues {left : Expr} {t : Lexeme} {ts : List Lexeme} {op : Operator}
    {k : Numbering} (id : NodeId) (hop : operator? t.token = some op) (hl : left.Alike e)
    (h : (p.read ts k).Continues f (.read rest)) :
    (readChain operator? p left (t :: ts) k).Continues (.binary op e f id)
      (readChain operator? p · rest) := by
  have hd : f.depth ≤ (Expr.binary op e f id).depth := by
    simp only [Expr.depth]
    omega
  have hg := h.grow t.line (fun right k => k.make (.binary op left right)) hd
    fun right k hr => hl.binary hr op k.next id
  unfold readChain
  simp only [hop]
  cases hg with
  | proceeds joined k' hle hj hr => exact .proceeds joined k' hle hj (by simp only [hr, Reply.read])
  | refuses l hlt hr => exact .refuses l hlt (by simp only [hr])

theorem chain_continues {ts : List Lexeme} {k : Numbering}
    (h : (p.read ts k).Continues e (.read rest)) :
    ((chain operator? p).read ts k).Continues e (readChain operator? p · rest) := by
  cases h with
  | proceeds f k' hle hf hr =>
    exact .proceeds f k' hle hf (by simp only [read_chain, Reply.andThen, hr, Reply.read])
  | refuses l hlt hr => exact .refuses l hlt (by simp only [read_chain, Reply.andThen, hr])

/-- A link of a chain: with a sign of its own and a phrase behind it, a chain goes on from its left
part to the whole. -/
theorem link_continues {r : Reply} {t : Lexeme} {ts : List Lexeme} {op : Operator}
    (hl : r.Continues e (readChain operator? p · (t :: ts))) (id : NodeId)
    (hop : operator? t.token = some op) (hr : ∀ k, (p.read ts k).Continues f (.read rest)) :
    r.Continues (.binary op e f id) (readChain operator? p · rest) := by
  refine hl.trans ?_ fun left k hleft => readChain_continues id hop hleft (hr k)
  simp only [Expr.depth]
  omega

theorem closed_continues {line l : Nat} {ts : List Lexeme} {k : Numbering}
    (h : (p.read ts k).Continues e (.read (⟨.closing, l⟩ :: rest))) :
    ((closed line p).read ts k).Continues e (.read rest) := by
  cases h with
  | proceeds f k' hle hf hr =>
    exact .proceeds f k' hle hf (by simp only [closed, hr, close, Reply.read])
  | refuses l hlt hr => exact .refuses l hlt (by simp only [closed, close, hr])

theorem signed_continues {t : Lexeme} {ts : List Lexeme} {op : Operator} {k : Numbering}
    (id : NodeId) (hop : Operator.ofPrefixSign? t.token = some op)
    (h : ((signed p).read ts k).Continues e (.read rest)) :
    ((signed p).read (t :: ts) k).Continues (.unary op e id) (.read rest) := by
  rw [read_signed] at h ⊢
  unfold readSigned
  simp only [hop]
  exact h.grow t.line (fun e k => k.make (.unary op e)) (Nat.le_succ _)
    fun f k hf => hf.unary op k.next id

theorem assigned_continues {name : String} {line l : Nat} {ts : List Lexeme} {k : Numbering}
    (target id : NodeId) (h : ((assigned p).read ts k).Continues e (.read rest)) :
    ((assigned p).read (⟨.identifier name, line⟩ :: ⟨.equals, l⟩ :: ts) k).Continues
      (.assign (.var name target) e id) (.read rest) := by
  rw [read_assigned] at h ⊢
  refine h.grow line (Top.makeAssign name) ?_
    fun f k hf => hf.assign name k.next (k.next + 1) target id
  simp only [Expr.depth]
  omega

theorem printed_continues {line : Nat} {ts : List Lexeme} {k : Numbering} (id : NodeId)
    (h : (p.read ts k).Continues e (.read rest)) :
    ((printed p).read (⟨.print, line⟩ :: ts) k).Continues (.print e id) (.read rest) := by
  rw [read_printed]
  exact h.grow line (fun e k => k.make (.print e)) (Nat.le_succ _) fun f k hf => hf.print k.next id

/-- Without a sign at the front, only the phrase itself is read. -/
theorem readSigned_of_head? {ts : List Lexeme}
    (h : ∀ t ∈ ts.head?, Operator.ofPrefixSign? t.token = none) (k : Numbering) :
    readSigned p ts k = p.read ts k := by
  cases ts with
  | nil => rfl
  | cons t ts =>
    have ht : Operator.ofPrefixSign? t.token = none := h t rfl
    unfold readSigned
    simp only [ht]

/-- The lexemes start with an assignment: with a name and an equals sign. -/
def AssignsFirst (ts : List Lexeme) : Prop :=
  ∃ name line l more, ts = ⟨.identifier name, line⟩ :: ⟨.equals, l⟩ :: more

/-- Without an assignment at the front, only the phrase itself is read. -/
theorem readAssigned_of_not_assignsFirst {ts : List Lexeme} (h : ¬ AssignsFirst ts)
    (k : Numbering) : readAssigned p ts k = p.read ts k := by
  unfold readAssigned
  split
  · exact absurd ⟨_, _, _, _, rfl⟩ h
  · rfl

/-- Without the word `print` at the front, only the phrase itself is read. -/
theorem readPrinted_of_head? {ts : List Lexeme} (h : ∀ t ∈ ts.head?, t.token ≠ .print)
    (k : Numbering) : readPrinted p ts k = p.read ts k := by
  unfold readPrinted
  split
  · rename_i line ts
    exact absurd rfl (h ⟨.print, line⟩ rfl)
  · rfl

/-! ## The readers for the kinds of phrases -/

/-- The reader for a kind of phrases. -/
def ofCategory (nesting : Nat) : Category → Phrase
  | .statement => statement nesting
  | .assignment => assigned (expression nesting)
  | .expression => expression nesting
  | .term => term (group nesting)
  | .factor => factor (group nesting)
  | .operand => operand (group nesting)

/-- What the reader for a kind of phrases does in front of `rest` when it has read a phrase. -/
def proceed (nesting : Nat) (rest : List Lexeme) : Category → Expr → Numbering → Reply
  | .expression => (readChain Operator.ofTermSign? (term (group nesting)) · rest)
  | .term => (readChain Operator.ofFactorSign? (factor (group nesting)) · rest)
  | _ => .read rest

end Phrase

/-- What may follow a phrase: nothing that one of its parts goes on with, and behind a statement
or an assignment nothing that it goes on with itself. -/
def Category.Ends : Category → List Lexeme → Prop
  | statement, rest | assignment, rest =>
    ∀ t ∈ rest.head?, Operator.ofSign? t.token = none ∧ t.token ≠ .equals
  | expression, rest => ∀ t ∈ rest.head?, Operator.ofFactorSign? t.token = none
  | _, _ => True

/-! ## Tokens and lexemes -/

theorem exists_of_tokens_eq_cons {taken : List Lexeme} {t : Token} {ts : List Token}
    (h : tokens taken = t :: ts) : ∃ line more, taken = ⟨t, line⟩ :: more ∧ tokens more = ts := by
  obtain ⟨⟨u, line⟩, more, rfl, rfl, hm⟩ := List.map_eq_cons_iff.mp h
  exact ⟨line, more, rfl, hm⟩

/-- Lexemes with some token in the middle. -/
theorem exists_of_tokens_eq_append_cons {taken : List Lexeme} {ts us : List Token} {t : Token}
    (h : tokens taken = ts ++ t :: us) : ∃ first line more,
      taken = first ++ ⟨t, line⟩ :: more ∧ tokens first = ts ∧ tokens more = us ∧
        first.length ≤ taken.length ∧ more.length ≤ taken.length := by
  obtain ⟨first, second, rfl, hf, hs⟩ := List.map_eq_append_iff.mp h
  obtain ⟨line, more, rfl, hm⟩ := exists_of_tokens_eq_cons hs
  rw [List.length_append, List.length_cons]
  exact ⟨first, line, more, rfl, hf, hm, by omega, by omega⟩

/-- Lexemes that are a group. -/
theorem exists_of_tokens_eq_group {taken : List Lexeme} {ts : List Token}
    (h : tokens taken = .opening :: ts ++ [.closing]) : ∃ line inside l,
      taken = ⟨.opening, line⟩ :: (inside ++ [⟨.closing, l⟩]) ∧ tokens inside = ts := by
  obtain ⟨line, second, rfl, hs⟩ := exists_of_tokens_eq_cons h
  obtain ⟨inside, l, more, rfl, hi, hm, -⟩ := exists_of_tokens_eq_append_cons hs
  obtain rfl := List.map_eq_nil_iff.mp hm
  exact ⟨line, inside, l, rfl, hi⟩

/-- What holds of the first token of a phrase holds of the first lexeme. -/
theorem forall_head?_of_tokens (P : Token → Prop) {taken : List Lexeme} {t : Token}
    {ts : List Token} (h : tokens taken = t :: ts) (hP : P t) (rest : List Lexeme) :
    ∀ u ∈ (taken ++ rest).head?, P u.token := by
  obtain ⟨line, more, rfl, -⟩ := exists_of_tokens_eq_cons h
  intro u hu
  rw [List.cons_append, List.head?_cons, Option.mem_some_iff] at hu
  exact hu ▸ hP

/-! ## All phrases -/

namespace Derives

variable {c : Category} {ts : List Token} {e : Expr}

theorem ne_nil (h : Derives c ts e) : ts ≠ [] := by
  induction h with
  | silent h ih | value h ih | firstTerm h ih | firstFactor h ih | plain h ih => exact ih
  | nextTerm | nextFactor => simp
  | _ => simp

/-- No operand starts with a sign. -/
theorem exists_head_of_operand (h : Derives .operand ts e) :
    ∃ t us, ts = t :: us ∧ Operator.ofPrefixSign? t = none := by
  cases h with
  | number value id => exact ⟨_, _, rfl, rfl⟩
  | name name id => exact ⟨_, _, rfl, rfl⟩
  | group h => exact ⟨_, _, rfl, rfl⟩

/-- No assignment starts with the word `print`. -/
theorem exists_head_of_assignment (h : Derives .assignment ts e) :
    ∃ t us, ts = t :: us ∧ t ≠ .print := by
  cases h with
  | assign name target id h => exact ⟨_, _, rfl, by simp⟩
  | value h =>
    obtain ⟨t, us, rfl⟩ := List.exists_cons_of_ne_nil h.ne_nil
    refine ⟨t, us, rfl, ?_⟩
    rintro rfl
    have := h.isArithmetic_of_mem rfl List.mem_cons_self
    cases this

/-- No assignment starts with an expression in front of what may follow an assignment. -/
theorem not_assignsFirst (h : Derives .expression ts e) {taken rest : List Lexeme}
    (ht : tokens taken = ts) (hr : Category.assignment.Ends rest) :
    ¬ Phrase.AssignsFirst (taken ++ rest) := by
  rintro ⟨name, line, l, us, heq⟩
  match taken, ht with
  | [], ht => exact h.ne_nil ht.symm
  | [_], _ =>
    simp only [List.cons_append, List.nil_append, List.cons.injEq] at heq
    exact (hr ⟨.equals, l⟩ (by rw [heq.2]; rfl)).2 rfl
  | _ :: v :: more, ht =>
    simp only [List.cons_append, List.cons.injEq] at heq
    have hv : v.token ∈ ts := by
      rw [← ht]
      exact List.mem_cons_of_mem _ List.mem_cons_self
    have ha := h.isArithmetic_of_mem rfl hv
    rw [heq.2.1] at ha
    cases ha

open Phrase in
/-- **Every phrase is read**: its lexemes are read as a tree like its own, whatever may follow, or
refused as too deep if that is beyond the limit. A group takes one of the parentheses that may be
open, and no phrase has more of them than lexemes. -/
theorem read_continues (h : Derives c ts e) {taken : List Lexeme} {nesting : Nat}
    (rest : List Lexeme) (k : Numbering) (ht : tokens taken = ts) (hn : taken.length ≤ nesting)
    (hr : c.Ends rest) :
    ((ofCategory nesting c).read (taken ++ rest) k).Continues e (proceed nesting rest c) := by
  induction h generalizing taken rest nesting k with
  | print id h ih =>
    obtain ⟨line, more, rfl, hm⟩ := exists_of_tokens_eq_cons ht
    exact printed_continues id (ih _ k hm (Nat.le_of_succ_le hn) hr)
  | silent h ih =>
    obtain ⟨t, us, rfl, hp⟩ := h.exists_head_of_assignment
    have hhead := forall_head?_of_tokens (· ≠ .print) ht hp rest
    simp only [ofCategory, statement, read_printed, readPrinted_of_head? hhead]
    exact ih rest k ht hn hr
  | assign name target id h ih =>
    obtain ⟨line, second, rfl, hs⟩ := exists_of_tokens_eq_cons ht
    obtain ⟨l, more, rfl, hm⟩ := exists_of_tokens_eq_cons hs
    exact assigned_continues target id
      (ih _ k hm (Nat.le_of_succ_le (Nat.le_of_succ_le hn)) hr)
  | value h ih =>
    have hfront := h.not_assignsFirst ht hr
    simp only [ofCategory, read_assigned, readAssigned_of_not_assignsFirst hfront]
    have hi := ih rest k ht hn fun t hmem => (Option.or_eq_none_iff.mp (hr t hmem).1).2
    exact hi.congr fun f k => readChain_of_head?
      (fun t hmem => (Option.or_eq_none_iff.mp (hr t hmem).1).1) k
  | firstTerm h ih =>
    exact chain_continues ((ih rest k ht hn trivial).congr fun f k => readChain_of_head? hr k)
  | nextTerm id hl hs hright ihl ihr =>
    obtain ⟨first, line, more, rfl, hf, hm, hfirst, hmore⟩ := exists_of_tokens_eq_append_cons ht
    rw [List.append_assoc]
    have hleft := ihl (⟨_, line⟩ :: more ++ rest) k hf (Nat.le_trans hfirst hn) fun t hmem => by
      cases hmem
      exact hs.ofFactorSign?_eq_none
    exact link_continues hleft id (ofTermSign?_eq_some_iff.mpr hs) fun k' =>
      (ihr rest k' hm (Nat.le_trans hmore hn) trivial).congr fun f k => readChain_of_head? hr k
  | firstFactor h ih => exact chain_continues (ih rest k ht hn trivial)
  | nextFactor id hl hs hright ihl ihr =>
    obtain ⟨first, line, more, rfl, hf, hm, hfirst, hmore⟩ := exists_of_tokens_eq_append_cons ht
    rw [List.append_assoc]
    exact link_continues (ihl _ k hf (Nat.le_trans hfirst hn) trivial) id
      (ofFactorSign?_eq_some_iff.mpr hs) fun k' => ihr rest k' hm (Nat.le_trans hmore hn) trivial
  | sign id hs h ih =>
    obtain ⟨line, more, rfl, hm⟩ := exists_of_tokens_eq_cons ht
    exact signed_continues id (ofPrefixSign?_eq_some_iff.mpr hs)
      (ih _ k hm (Nat.le_of_succ_le hn) hr)
  | plain h ih =>
    obtain ⟨t, us, rfl, hp⟩ := h.exists_head_of_operand
    have hhead := forall_head?_of_tokens (Operator.ofPrefixSign? · = none) ht hp rest
    simp only [ofCategory, factor, read_signed, readSigned_of_head? hhead]
    exact ih rest k ht hn hr
  | number value id =>
    obtain ⟨line, more, rfl, hm⟩ := exists_of_tokens_eq_cons ht
    obtain rfl := List.map_eq_nil_iff.mp hm
    exact .proceeds (.literal value k.next) _ one_le_nestingLimit rfl rfl
  | name name id =>
    obtain ⟨line, more, rfl, hm⟩ := exists_of_tokens_eq_cons ht
    obtain rfl := List.map_eq_nil_iff.mp hm
    exact .proceeds (.var name k.next) _ one_le_nestingLimit rfl rfl
  | group h ih =>
    obtain ⟨line, inside, l, rfl, hi⟩ := exists_of_tokens_eq_group ht
    rw [List.length_cons, List.length_append] at hn
    obtain ⟨nesting, rfl⟩ := Nat.exists_eq_succ_of_ne_zero (show nesting ≠ 0 by omega)
    have hlength : inside.length ≤ nesting := by omega
    have hinside := ih (⟨.closing, l⟩ :: rest) k hi hlength fun t hmem => by
      cases hmem
      rfl
    simp only [List.cons_append, List.append_assoc, List.nil_append]
    refine closed_continues (hinside.congr fun f k' => readChain_of_head? ?_ k')
    rintro _ ⟨⟩
    rfl

end Derives

end LineCalc
