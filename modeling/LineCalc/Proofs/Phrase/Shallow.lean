import LineCalc.Proofs.Phrase.Soundness

/-!
# Nodes head shallow trees

Every node that is made heads a tree within the limit. That includes the nodes that were made for a
phrase that turned out to be wrong, and does not depend on how many parentheses are open.

* `Numbering.Shallow` says so of the nodes made so far, and `Phrase.KeepsShallow` of a reader that
  it makes no other nodes.
* One lemma for each operation on readers. What goes on top of a tree is measured before it is made,
  so `Reply.shallow_grow` needs nothing of the tree below.
* `Phrase.keepsShallow_statement`, `Phrase.keepsShallow_expression` and `Phrase.keepsShallow_term`
  put them together, by induction on the nesting.
-/

namespace LineCalc

/-- Every node made so far heads a tree within the limit. -/
def Numbering.Shallow (k : Numbering) : Prop := ∀ e ∈ k.made, e.depth ≤ nestingLimit

theorem Numbering.shallow_start (next : NodeId) : (start next).Shallow := fun _ h => nomatch h

theorem Numbering.Shallow.make {k : Numbering} (h : k.Shallow) {node : NodeId → Expr}
    (hd : (k.make node).1.depth ≤ nestingLimit) : (k.make node).2.Shallow :=
  List.forall_mem_cons.mpr ⟨hd, h⟩

/-- What is put on top of a tree is shallow, or is not made. -/
theorem Reply.shallow_grow {r : Reply} {make : Expr → Numbering → Expr × Numbering}
    (h : r.nodes.Shallow)
    (hmake : ∀ e k, k.Shallow → (make e k).1.depth ≤ nestingLimit → (make e k).2.Shallow)
    (line : Nat) : (r.grow line make).nodes.Shallow := by
  unfold grow
  split
  · exact h
  · split
    · exact h
    · rename_i hd
      exact hmake _ _ h (Nat.le_of_not_lt hd)

/-- A single node that is put on top of a tree. -/
theorem Reply.shallow_grow_make {r : Reply} (h : r.nodes.Shallow) (node : Expr → NodeId → Expr)
    (line : Nat) : (r.grow line fun e k => k.make (node e)).nodes.Shallow :=
  shallow_grow h (fun _ _ hk hd => hk.make hd) line

namespace Phrase

/-- The reader makes no nodes but those that head a tree within the limit. -/
def KeepsShallow (p : Phrase) : Prop :=
  ∀ ts k, k.Shallow → (p.read ts k).nodes.Shallow

variable {p : Phrase}

theorem keepsShallow_refused (line : Nat) : KeepsShallow (refused line) := fun _ _ h => h

theorem keepsShallow_operand {group : Nat → Phrase} (hg : ∀ line, KeepsShallow (group line)) :
    KeepsShallow (operand group) := by
  intro ts k h
  simp only [operand]
  unfold readOperand
  split
  · exact h
  · exact h.make one_le_nestingLimit
  · exact h.make one_le_nestingLimit
  · exact hg _ _ _ h
  · exact h

theorem keepsShallow_closed (hp : KeepsShallow p) (line : Nat) : KeepsShallow (closed line p) := by
  intro ts k h
  have hr := hp ts k h
  simp only [closed]
  unfold close
  split
  · exact hr
  · split <;> exact hr

theorem keepsShallow_signed (hp : KeepsShallow p) : KeepsShallow (signed p) := by
  intro ts k h
  simp only [read_signed]
  induction ts with
  | nil => exact hp [] k h
  | cons t ts ih =>
    unfold readSigned
    split
    · rename_i op _
      exact Reply.shallow_grow_make ih (.unary op) t.line
    · exact hp (t :: ts) k h

theorem shallow_readChain {operator? : Token → Option Operator} (hp : KeepsShallow p) {left : Expr}
    {ts : List Lexeme} {k : Numbering} (h : k.Shallow) :
    (readChain operator? p left ts k).nodes.Shallow := by
  fun_induction readChain operator? p left ts k with
  | case1 left k => exact h
  | case2 left k t ts hop => exact h
  | case3 left k t ts op hop r x hx =>
    exact Reply.shallow_grow_make (hp ts k h) (.binary op left) t.line
  | case4 left k t ts op hop r joined hj ih =>
    exact ih (Reply.shallow_grow_make (hp ts k h) (.binary op left) t.line)

theorem keepsShallow_chain {operator? : Token → Option Operator} (hp : KeepsShallow p) :
    KeepsShallow (chain operator? p) := by
  intro ts k h
  have hr := hp ts k h
  simp only [read_chain, Reply.andThen]
  split
  · exact hr
  · exact shallow_readChain hp hr

/-- An assignment makes two nodes, and the first of them is a leaf. -/
theorem shallow_makeAssign {name : String} {value : Expr} {k : Numbering} (h : k.Shallow)
    (hd : (Top.makeAssign name value k).1.depth ≤ nestingLimit) :
    (Top.makeAssign name value k).2.Shallow := by
  have ht : (k.make (.var name)).2.Shallow := h.make one_le_nestingLimit
  exact ht.make hd

theorem keepsShallow_assigned (hp : KeepsShallow p) : KeepsShallow (assigned p) := by
  intro ts k h
  simp only [read_assigned]
  fun_induction readAssigned p ts k with
  | case1 name line l ts k ih =>
    exact Reply.shallow_grow (ih h) (fun e k hk hd => shallow_makeAssign hk hd) line
  | case2 ts k => exact hp ts k h

theorem keepsShallow_printed (hp : KeepsShallow p) : KeepsShallow (printed p) := by
  intro ts k h
  simp only [read_printed]
  unfold readPrinted
  split
  · exact Reply.shallow_grow_make (hp _ k h) .print _
  · exact hp _ k h

theorem keepsShallow_group (nesting line : Nat) : KeepsShallow (group nesting line) := by
  induction nesting generalizing line with
  | zero => exact keepsShallow_refused line
  | succ nesting ih =>
    exact keepsShallow_closed (keepsShallow_chain (keepsShallow_chain
      (keepsShallow_signed (keepsShallow_operand ih)))) line

theorem keepsShallow_term (nesting : Nat) : KeepsShallow (term (group nesting)) :=
  keepsShallow_chain (keepsShallow_signed (keepsShallow_operand (keepsShallow_group nesting)))

theorem keepsShallow_expression (nesting : Nat) : KeepsShallow (expression nesting) :=
  keepsShallow_chain (keepsShallow_term nesting)

/-- **No node of a statement heads a tree beyond the limit**, read or given up. -/
theorem keepsShallow_statement (nesting : Nat) : KeepsShallow (statement nesting) :=
  keepsShallow_printed (keepsShallow_assigned (keepsShallow_expression nesting))

end Phrase

end LineCalc
