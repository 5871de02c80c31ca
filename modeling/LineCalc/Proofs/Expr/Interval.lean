import LineCalc.Expr.Basic

/-!
# Trees with consecutive numbers

A tree whose nodes were made one after another has consecutive numbers. A node is made when its
children are there, and a left operand is made before the right one. The target of an assignment is
a variable that is made behind the value, although it comes first among the children.

* `Expr.NumberedFrom` says that a tree was made that way from a given number on, by recursion on the
  tree.
* `Expr.Spans` says what the numbers of such a tree are, without saying which node has which: all
  numbers of an interval, each used once, and the root has the last of them.
* `Expr.NumberedFrom.spans` and `Expr.NumberedFrom.exists_of_mem`: a numbered tree spans an
  interval, and so does every tree in it.
* `Expr.NumberedFrom.nodup`: no two nodes have the same number.
-/

namespace LineCalc

namespace Expr

/-- The nodes of the tree were made one after another, and the first one has the given number. -/
def NumberedFrom (first : NodeId) : Expr → Prop
  | literal _ id => id = first
  | var _ id => id = first
  | unary _ operand id => operand.NumberedFrom first ∧ id = first + operand.size
  | binary _ left right id =>
    left.NumberedFrom first ∧ right.NumberedFrom (first + left.size) ∧
      id = first + left.size + right.size
  | assign target value id =>
    value.NumberedFrom first ∧ (∃ name, target = var name (first + value.size)) ∧
      id = first + value.size + 1
  | print operand id => operand.NumberedFrom first ∧ id = first + operand.size

/-- The numbers of the nodes are the interval from the given number on, each used once, and the root
has the greatest of them. -/
structure Spans (e : Expr) (first : NodeId) : Prop where
  numbers : (e.postorder.map id).Perm (List.range' first e.size)
  root : e.id + 1 = first + e.size

namespace NumberedFrom

variable {e n : Expr} {first : NodeId}

/-- The root is made last. -/
theorem id_add_one (h : e.NumberedFrom first) : e.id + 1 = first + e.size := by
  cases e with
  | literal value i | var name i => exact congrArg (· + 1) h
  | unary op operand i | print operand i => exact congrArg (· + 1) h.2
  | binary op left right i => rw [id, h.2.2, size, Nat.add_assoc, Nat.add_assoc, Nat.add_assoc]
  | assign target value i =>
    obtain ⟨-, ⟨name, rfl⟩, rfl⟩ := h
    rw [id, size, size, Nat.add_comm 1, Nat.add_assoc, Nat.add_assoc]

/-- The numbers are used up from the first one on. -/
theorem perm_range (h : e.NumberedFrom first) :
    (e.postorder.map id).Perm (List.range' first e.size) := by
  induction e generalizing first with
  | literal value i | var name i =>
    obtain rfl : i = first := h
    exact .refl _
  | unary op operand i ih | print operand i ih =>
    obtain ⟨ho, rfl⟩ := h
    rw [postorder, size, List.map_append, List.range'_1_concat]
    exact (ih ho).append_right _
  | binary op left right i ihl ihr =>
    obtain ⟨hl, hr, rfl⟩ := h
    rw [postorder, size, List.map_append, List.map_append, List.range'_1_concat,
      ← List.range'_append_1, ← Nat.add_assoc]
    exact ((ihl hl).append (ihr hr)).append_right _
  | assign target value i iht ihv =>
    obtain ⟨hv, ⟨name, rfl⟩, rfl⟩ := h
    rw [postorder, postorder, size, size, Nat.add_comm 1, List.map_append, List.map_append,
      List.range'_1_concat, List.range'_1_concat]
    exact (List.perm_append_comm.trans ((ihv hv).append_right _)).append_right _

theorem spans (h : e.NumberedFrom first) : e.Spans first := ⟨h.perm_range, h.id_add_one⟩

/-- **No two nodes have the same number.** -/
theorem nodup (h : e.NumberedFrom first) : (e.postorder.map id).Nodup :=
  h.perm_range.nodup_iff.mpr List.nodup_range'

theorem exists_of_mem_children {c : Expr} (h : e.NumberedFrom first) (hc : c ∈ e.children) :
    ∃ i, c.NumberedFrom i := by
  cases e with
  | literal value i | var name i => cases hc
  | unary op operand i | print operand i =>
    rw [List.mem_singleton.mp hc]
    exact ⟨first, h.1⟩
  | binary op left right i =>
    rcases List.mem_cons.mp hc with rfl | hc
    · exact ⟨first, h.1⟩
    · rw [List.mem_singleton.mp hc]
      exact ⟨first + left.size, h.2.1⟩
  | assign target value i =>
    rcases List.mem_cons.mp hc with rfl | hc
    · obtain ⟨name, rfl⟩ := h.2.1
      exact ⟨first + value.size, rfl⟩
    · rw [List.mem_singleton.mp hc]
      exact ⟨first, h.1⟩

/-- Every tree in a numbered tree is numbered. -/
theorem exists_of_mem (h : e.NumberedFrom first) (hn : n ∈ e.postorder) :
    ∃ i, n.NumberedFrom i := by
  induction e using children_induction generalizing first with
  | node e ih =>
    rcases mem_postorder_iff.mp hn with rfl | ⟨c, hc, hn⟩
    · exact ⟨first, h⟩
    · obtain ⟨i, hi⟩ := h.exists_of_mem_children hc
      exact ih c hc hi hn

end NumberedFrom

end Expr

end LineCalc
