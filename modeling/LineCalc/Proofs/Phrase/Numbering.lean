import Mathlib.Control.Monad.Basic
import LineCalc.Proofs.Phrase.Line
import LineCalc.Proofs.Expr.Interval

/-!
# How the nodes of a line are numbered

Reading makes no node that it does not use, unless it fails. So the numbers of a tree that is read
are consecutive from the number on that reading began with, and when it ends the next number is the
one behind them. Each node that is made is paid for by a lexeme that was taken, also if reading
fails later on.

* `Reply.NumbersFrom` says both of a reply: its tree is numbered from a given number on, and the
  number for the next node and the lexemes that are left stay together within a budget.
* `Reply.NumbersFrom.grow` is about a node on top of a tree, and `Phrase.Numbers` about the replies
  of a reader. One lemma for each operation on readers puts them together.
* `readLine_numbers_nodes` is about lines of text.
-/

namespace LineCalc

/-! ## Replies -/

/-- The tree of the reply is numbered from `first` on, and no number is left out behind it. With or
without a tree, the lexemes left and the numbers used are within the budget. -/
structure Reply.NumbersFrom (r : Reply) (first budget : Nat) : Prop where
  first_le : first ≤ r.nodes.next
  within : r.rest.length + r.nodes.next ≤ budget
  numbered : ∀ e, r.outcome = .ok e → e.NumberedFrom first ∧ r.nodes.next = first + e.size

namespace Reply.NumbersFrom

variable {r : Reply} {first budget : Nat}

theorem mono {budget' : Nat} (h : r.NumbersFrom first budget) (hb : budget ≤ budget') :
    r.NumbersFrom first budget' := ⟨h.first_le, Nat.le_trans h.within hb, h.numbered⟩

/-- An error uses no number. -/
theorem of_error {x : SyntaxError} {rest : List Lexeme} {k : Numbering} (hf : first ≤ k.next)
    (h : rest.length + k.next ≤ budget) : NumbersFrom ⟨.error x, rest, k⟩ first budget :=
  ⟨hf, h, nofun⟩

/-- A tree of one node uses one number. -/
theorem of_leaf {node : NodeId → Expr} {rest : List Lexeme} {k : Numbering}
    (hn : (node k.next).NumberedFrom k.next) (hs : (node k.next).size = 1)
    (h : rest.length + 1 + k.next ≤ budget) :
    NumbersFrom (.made rest (k.make node)) k.next budget := by
  have hnext : (Reply.made rest (k.make node)).nodes.next = k.next + 1 := rfl
  have hrest : (Reply.made rest (k.make node)).rest = rest := rfl
  refine ⟨Nat.le_succ _, ?_, ?_⟩
  · rw [hrest, hnext]
    omega
  · rintro _ ⟨⟩
    exact ⟨hn, congrArg (k.next + ·) hs.symm⟩

/-- **What is put on top of a tree is numbered behind it.** There may be nodes in front of the tree
that belong to the new one. What is made costs at most `cost` numbers. -/
theorem grow {first' cost : Nat} {make : Expr → Numbering → Expr × Numbering}
    (h : r.NumbersFrom first' budget) (hfirst : first ≤ first')
    (hcost : ∀ e k, k.next ≤ (make e k).2.next ∧ (make e k).2.next ≤ cost + k.next)
    (hmake : ∀ e k, e.NumberedFrom first' → k.next = first' + e.size →
      (make e k).1.NumberedFrom first ∧ (make e k).2.next = first + (make e k).1.size)
    (line : Nat) : (r.grow line make).NumbersFrom first (budget + cost) := by
  obtain ⟨hle, hwithin, hnumbered⟩ := h
  have hle' := Nat.le_trans hfirst hle
  unfold Reply.grow
  split
  · rename_i x hx
    refine ⟨hle', Nat.le_add_right_of_le hwithin, fun e he => ?_⟩
    rw [hx] at he
    cases he
  · rename_i f hf
    split
    · refine ⟨hle', Nat.le_add_right_of_le hwithin, fun e he => ?_⟩
      cases he
    · obtain ⟨hge, hlt⟩ := hcost f r.nodes
      have hnext : (made r.rest (make f r.nodes)).nodes = (make f r.nodes).2 := rfl
      have hrest : (made r.rest (make f r.nodes)).rest = r.rest := rfl
      refine ⟨Nat.le_trans hle' hge, ?_, ?_⟩
      · rw [hnext, hrest]
        exact Nat.le_trans (Nat.add_le_add_left hlt _) (by omega)
      · rintro _ ⟨⟩
        obtain ⟨hf', hk⟩ := hnumbered f hf
        exact hmake f r.nodes hf' hk

/-- A single node on top of a tree. -/
theorem grow_make {first' : Nat} (node : Expr → NodeId → Expr)
    (h : r.NumbersFrom first' budget) (hfirst : first ≤ first')
    (hnode : ∀ e, e.NumberedFrom first' → (node e (first' + e.size)).NumberedFrom first ∧
      first' + e.size + 1 = first + (node e (first' + e.size)).size) (line : Nat) :
    (r.grow line fun e k => k.make (node e)).NumbersFrom first (budget + 1) := by
  refine h.grow hfirst (fun e k => ⟨Nat.le_succ _, Nat.le_of_eq (Nat.add_comm _ _)⟩) ?_ line
  intro e k he hk
  have hmade : k.make (node e) = (node e k.next, ⟨k.next + 1, node e k.next :: k.made⟩) := rfl
  rw [hmade, hk]
  exact hnode e he

end Reply.NumbersFrom

namespace Phrase

/-- The reader numbers its tree from the next number on, and every node that it makes is paid for by
a lexeme. -/
def Numbers (p : Phrase) : Prop :=
  ∀ ts k, (p.read ts k).NumbersFrom k.next (ts.length + k.next)

variable {p : Phrase}

theorem numbers_refused (line : Nat) : Numbers (refused line) :=
  fun _ _ => .of_error (Nat.le_refl _) (Nat.le_refl _)

theorem numbers_operand {group : Nat → Phrase} (hg : ∀ line, Numbers (group line)) :
    Numbers (operand group) := by
  intro ts k
  have hskip : ∀ ts : List Lexeme, ts.length + k.next ≤ ts.length + 1 + k.next :=
    fun ts => Nat.add_le_add_right (Nat.le_succ _) _
  simp only [operand]
  unfold readOperand
  split
  · exact .of_error (Nat.le_refl _) (Nat.le_refl _)
  · exact .of_leaf rfl rfl (Nat.le_refl _)
  · exact .of_leaf rfl rfl (Nat.le_refl _)
  · exact (hg _ _ _).mono (hskip _)
  · exact .of_error (Nat.le_refl _) (hskip _)

theorem numbers_closed (hp : Numbers p) (line : Nat) : Numbers (closed line p) := by
  intro ts k
  obtain ⟨hle, hwithin, hnumbered⟩ := hp ts k
  have hrest := (rest_close_suffix line (p.read ts k)).length_le
  simp only [closed]
  generalize p.read ts k = r at hle hwithin hnumbered hrest
  have hnodes : (close line r).nodes = r.nodes := by
    unfold close
    split
    · rfl
    · split <;> rfl
  have houtcome : ∀ e, (close line r).outcome = .ok e → r.outcome = .ok e := by
    unfold close
    split
    · exact fun _ he => he
    · split
      · exact fun _ he => he
      all_goals
        intro e he
        cases he
  refine ⟨hnodes ▸ hle, ?_, fun e he => hnodes ▸ hnumbered e (houtcome e he)⟩
  rw [hnodes]
  omega

theorem numbers_signed (hp : Numbers p) : Numbers (signed p) := by
  intro ts k
  simp only [read_signed]
  induction ts with
  | nil => exact hp [] k
  | cons t ts ih =>
    unfold readSigned
    split
    · rename_i op _
      have h := ih.grow_make (.unary op) (Nat.le_refl _) (fun e he => ⟨⟨he, rfl⟩, rfl⟩) t.line
      exact h.mono (by rw [List.length_cons]; omega)
    · exact hp (t :: ts) k

/-- Each operand of a chain is numbered behind the part that is there, which is the left operand of
what comes next. -/
theorem numbersFrom_readChain {operator? : Token → Option Operator} (hp : Numbers p) {left : Expr}
    {ts : List Lexeme} {k : Numbering} {first budget : Nat} (hl : left.NumberedFrom first)
    (hk : k.next = first + left.size) (hb : ts.length + k.next ≤ budget) :
    (readChain operator? p left ts k).NumbersFrom first budget := by
  have hjoin : ∀ (left : Expr) (k : Numbering) (op : Operator) (ts : List Lexeme) (line : Nat),
      left.NumberedFrom first → k.next = first + left.size →
        ((p.read ts k).grow line fun right k => k.make (.binary op left right)).NumbersFrom first
          (ts.length + k.next + 1) := by
    intro left k op ts line hl hk
    refine (hp ts k).grow_make _ (hk ▸ Nat.le_add_right _ _) (fun e he => ?_) line
    rw [hk] at he ⊢
    exact ⟨⟨hl, he, rfl⟩, by rw [Expr.size, Nat.add_assoc, Nat.add_assoc, Nat.add_assoc]⟩
  fun_induction readChain operator? p left ts k with
  | case1 left k =>
    refine ⟨hk ▸ Nat.le_add_right _ _, hb, ?_⟩
    rintro _ ⟨⟩
    exact ⟨hl, hk⟩
  | case2 left k t ts hop =>
    refine ⟨hk ▸ Nat.le_add_right _ _, hb, ?_⟩
    rintro _ ⟨⟩
    exact ⟨hl, hk⟩
  | case3 left k t ts op hop r x hx =>
    rw [List.length_cons] at hb
    exact (hjoin left k op ts t.line hl hk).mono (by omega)
  | case4 left k t ts op hop r joined hj ih =>
    rw [List.length_cons] at hb
    obtain ⟨-, hwithin, hnumbered⟩ := hjoin left k op ts t.line hl hk
    obtain ⟨hjoined, hnext⟩ := hnumbered joined hj
    exact ih hjoined hnext (Nat.le_trans hwithin (by omega))

theorem numbers_chain {operator? : Token → Option Operator} (hp : Numbers p) :
    Numbers (chain operator? p) := by
  intro ts k
  have hr := hp ts k
  simp only [read_chain, Reply.andThen]
  split
  · exact hr
  · rename_i left hleft
    obtain ⟨hl, hnext⟩ := hr.numbered left hleft
    exact numbersFrom_readChain hp hl hnext hr.within

/-- The target of an assignment is numbered behind the value, and the assignment behind both. -/
theorem numberedFrom_makeAssign {name : String} {e : Expr} {k : Numbering} {first : NodeId}
    (he : e.NumberedFrom first) (hk : k.next = first + e.size) :
    (Top.makeAssign name e k).1.NumberedFrom first ∧
      (Top.makeAssign name e k).2.next = first + (Top.makeAssign name e k).1.size := by
  have hmade : Top.makeAssign name e k = (.assign (.var name k.next) e (k.next + 1),
      ⟨k.next + 2, [.assign (.var name k.next) e (k.next + 1), .var name k.next] ++ k.made⟩) := rfl
  have hsize : (Expr.assign (.var name k.next) e (k.next + 1)).size = e.size + 2 := by
    simp only [Expr.size]
    omega
  rw [hmade]
  dsimp only
  rw [hsize, hk]
  exact ⟨⟨he, ⟨name, rfl⟩, rfl⟩, Nat.add_assoc _ _ _⟩

theorem numbers_assigned (hp : Numbers p) : Numbers (assigned p) := by
  intro ts k
  simp only [read_assigned]
  fun_induction readAssigned p ts k with
  | case1 name line l ts k ih =>
    have h : ((readAssigned p ts k).grow line (Top.makeAssign name)).NumbersFrom k.next
        (ts.length + k.next + 2) := by
      refine ih.grow (Nat.le_refl _) (fun e k => ⟨Nat.le_add_right _ 2, ?_⟩)
        (fun e k he hk => numberedFrom_makeAssign he hk) line
      exact Nat.le_of_eq (Nat.add_comm _ 2)
    exact h.mono (by rw [List.length_cons, List.length_cons]; omega)
  | case2 ts k => exact hp ts k

theorem numbers_printed (hp : Numbers p) : Numbers (printed p) := by
  intro ts k
  simp only [read_printed]
  unfold readPrinted
  split
  · rename_i line ts
    have h := (hp ts k).grow_make .print (Nat.le_refl _) (fun e he => ⟨⟨he, rfl⟩, rfl⟩) line
    exact h.mono (by rw [List.length_cons]; omega)
  · exact hp _ k

theorem numbers_group (nesting line : Nat) : Numbers (group nesting line) := by
  induction nesting generalizing line with
  | zero => exact numbers_refused line
  | succ nesting ih =>
    exact numbers_closed (numbers_chain (numbers_chain (numbers_signed (numbers_operand ih)))) line

/-- **The nodes of a statement are numbered one after another**, and each is paid for. -/
theorem numbers_statement (nesting : Nat) : Numbers (statement nesting) :=
  numbers_printed (numbers_assigned (numbers_chain (numbers_chain
    (numbers_signed (numbers_operand (numbers_group nesting))))))

end Phrase

/-! ## Lines -/

/-- The number for the next node goes up by the number of lexemes at most, whatever becomes of a
line. -/
theorem next_readLexemes (ts : List Lexeme) (line : Nat) (k : Numbering) :
    k.next ≤ (readLexemes ts line k).nodes.next ∧
      (readLexemes ts line k).nodes.next ≤ ts.length + k.next := by
  have hk : k.next ≤ k.next ∧ k.next ≤ ts.length + k.next :=
    ⟨Nat.le_refl _, Nat.le_add_left _ _⟩
  unfold readLexemes
  split
  · exact hk
  · split
    · exact hk
    · have h := Phrase.numbers_statement ts.length ts k
      exact ⟨h.first_le, Nat.le_trans (Nat.le_add_left _ _) h.within⟩

/-- The tree of a line is numbered from the given number on, and the next node comes behind it. -/
theorem numberedFrom_of_readLexemes {ts : List Lexeme} {line : Nat} {k : Numbering} {e : Expr}
    (h : (readLexemes ts line k).outcome = .ok (some e)) :
    e.NumberedFrom k.next ∧ (readLexemes ts line k).nodes.next = k.next + e.size := by
  unfold readLexemes at h ⊢
  split at h
  · cases h
  · rename_i hts
    rw [if_neg hts]
    split at h
    · cases h
    · exact (Phrase.numbers_statement ts.length ts k).numbered e (lineOutcome_eq_some_iff.mp h).1

theorem numberedFrom_of_readLine {source : String} {line : Nat} {next : NodeId} {e : Expr}
    (h : (readLine source line next).outcome = .ok (some e)) :
    e.NumberedFrom next ∧ (readLine source line next).nodes.next = next + e.size := by
  unfold readLine at h ⊢
  split at h
  · cases h
  · exact numberedFrom_of_readLexemes h

/-- **The numbers of a line have no gaps and no repetitions.** The nodes of the statement of a line
have all numbers from the one that was next to the one before that which is next afterwards, each
once. Every part of the statement spans an interval of its own, in which its root comes last; the
operands of an operator follow each other, and the target of an assignment follows its value. A
line that is refused uses no more numbers than it has lexemes, and none if it has no lexemes because
its text is wrong. -/
theorem readLine_numbers_nodes (source : String) (line : Nat) (next : NodeId) :
    (∀ e, (readLine source line next).outcome = .ok (some e) →
      e.Spans next ∧ (readLine source line next).nodes.next = next + e.size ∧
      (∀ n ∈ e.postorder, ∃ first, n.Spans first) ∧
      (∀ op left right id, .binary op left right id ∈ e.postorder →
        ∃ first, left.Spans first ∧ right.Spans (first + left.size)) ∧
      ∀ target value id, .assign target value id ∈ e.postorder →
        ∃ first, value.Spans first ∧ target.id = first + value.size) ∧
    ∀ x, (readLine source line next).outcome = .error x →
      next ≤ (readLine source line next).nodes.next ∧
      (∀ ts, tokenize source line = .ok ts →
        (readLine source line next).nodes.next ≤ ts.length + next) ∧
      (∀ y, tokenize source line = .error y → (readLine source line next).nodes.next = next) := by
  refine ⟨fun e he => ?_, fun x _ => ?_⟩
  · obtain ⟨hnumbered, hnext⟩ := numberedFrom_of_readLine he
    refine ⟨hnumbered.spans, hnext, fun n hn => ?_, fun op left right id hn => ?_,
      fun target value id hn => ?_⟩
    · obtain ⟨first, h⟩ := hnumbered.exists_of_mem hn
      exact ⟨first, h.spans⟩
    · obtain ⟨first, hl, hr, -⟩ := hnumbered.exists_of_mem hn
      exact ⟨first, hl.spans, hr.spans⟩
    · obtain ⟨first, hv, ⟨name, rfl⟩, -⟩ := hnumbered.exists_of_mem hn
      exact ⟨first, hv.spans, rfl⟩
  · unfold readLine
    cases tokenize source line with
    | error y => exact ⟨Nat.le_refl _, nofun, fun _ _ => rfl⟩
    | ok ts =>
      obtain ⟨hle, hlt⟩ := next_readLexemes ts line (.start next)
      refine ⟨hle, ?_, nofun⟩
      rintro _ ⟨⟩
      exact hlt

/-- Two assignments around a difference, and a line of four lexemes that is refused at the last of
them, when a node has been made. -/
theorem readLine_numbers_nodes_of_chain :
    let e : Expr := .assign (.var "x" 12)
      (.assign (.var "y" 10) (.binary .sub (.var "a" 7) (.var "b" 8) 9) 11) 13
    ((readLine "x = y = a - b" 1 7).outcome = .ok (some e) ∧
      (readLine "x = a )" 1 7).outcome = .error (.trailing "RParen" 1)) ∧
    e.Spans 7 ∧ (readLine "x = y = a - b" 1 7).nodes.next = 14 ∧
      (∃ first, (Expr.var "a" 7).Spans first ∧ (Expr.var "b" 8).Spans (first + 1)) ∧
      (readLine "x = a )" 1 7).nodes.next ≤ 11 := by
  intro e
  have he : (readLine "x = y = a - b" 1 7).outcome = .ok (some e) := by decide +kernel
  have hx : (readLine "x = a )" 1 7).outcome = .error (.trailing "RParen" 1) := by decide +kernel
  have ht : ∃ ts, tokenize "x = a )" 1 = .ok ts ∧ ts.length = 4 := by
    refine ⟨[⟨.identifier "x", 1⟩, ⟨.equals, 1⟩, ⟨.identifier "a", 1⟩, ⟨.closing, 1⟩], ?_, rfl⟩
    decide +kernel
  obtain ⟨ts, hts, hlength⟩ := ht
  obtain ⟨hspans, hnext, -, hoperands, -⟩ := (readLine_numbers_nodes "x = y = a - b" 1 7).1 e he
  obtain ⟨-, hbound, -⟩ := (readLine_numbers_nodes "x = a )" 1 7).2 _ hx
  refine ⟨⟨he, hx⟩, hspans, hnext, hoperands .sub (.var "a" 7) (.var "b" 8) 9 (by decide), ?_⟩
  have h := hbound ts hts
  rwa [hlength] at h

end LineCalc
