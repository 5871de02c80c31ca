import LineCalc.Token.Basic

/-!
# Expression trees

A statement is a tree of six kinds of nodes, and some nodes carry an operator. Every node carries a
number that tells it apart from the other nodes; the numbers mean nothing to the value of the tree.
They are given in the order in which the nodes are made, across everything that is made. A node
keeps its number even when the tree that it was made for is given up. This is the module `ast` of
the specification (10.1), whose texts are in the module behind this one.

* `Operator.symbol` is the text of an operator in listings, graphs and messages.
* `Operator.isUnary` and `Operator.isBinary` say where an operator is meaningful.
* `Operator.ofSign?` and `Operator.ofPrefixSign?` read an operator from its token. A plus sign
  before an operand takes the absolute value, a minus sign negates.
* `Expr.depth` and `Expr.size` measure a tree.
* `Expr.preorder` lists the nodes with each node before its children, `Expr.postorder` with each
  node behind them; children come from left to right.
* `Expr.targets` are the names that a tree assigns to, in the order of `Expr.preorder`. They are
  `assignment_targets` there.
* `Numbering` is the number for the next node, with the nodes that were made before it, and
  `Numbering.make` makes a node.

Only trees built by hand have an operator that does not fit its node, or an assignment to something
other than a variable.
-/

namespace LineCalc

/-! ## Operators -/

/-- An arithmetic operator. -/
inductive Operator where
  | add
  | sub
  | mul
  | div
  /-- The remainder. -/
  | mod
  /-- The absolute value. -/
  | abs
  /-- The opposite number. -/
  | neg
  deriving DecidableEq

namespace Operator

/-- The text of an operator. -/
def symbol : Operator → String
  | add => "+"
  | sub => "-"
  | mul => "*"
  | div => "/"
  | mod => "%"
  | abs => "abs"
  | neg => "neg"

/-- Whether the operator takes one operand. -/
def isUnary : Operator → Bool
  | abs | neg => true
  | _ => false

/-- Whether the operator takes two operands. -/
def isBinary (op : Operator) : Bool := !op.isUnary

/-- Whether the operator asks for a right operand other than zero. -/
def isDivision : Operator → Bool
  | div | mod => true
  | _ => false

/-- The operator that a sign between two terms stands for. -/
def ofTermSign? : Token → Option Operator
  | .plus => some add
  | .minus => some sub
  | _ => none

/-- The operator that a sign between two factors stands for. -/
def ofFactorSign? : Token → Option Operator
  | .star => some mul
  | .slash => some div
  | .percent => some mod
  | _ => none

/-- The operator that a sign between two operands stands for. -/
def ofSign? (token : Token) : Option Operator :=
  (ofTermSign? token).or (ofFactorSign? token)

/-- The operator that a sign before an operand stands for. -/
def ofPrefixSign? : Token → Option Operator
  | .plus => some abs
  | .minus => some neg
  | _ => none

end Operator

/-! ## Trees -/

/-- The number of a node. The specification (10.1) counts in words of 64 bits, which begin again at
zero behind the greatest one. Here there is no greatest number, so that the numbers are the same for
the first `2 ^ 64` nodes. -/
abbrev NodeId := Nat

/-- An expression tree. -/
inductive Expr where
  /-- A constant. -/
  | literal (value : Binary64) (id : NodeId)
  /-- The value of a variable. -/
  | var (name : String) (id : NodeId)
  /-- An operator before one operand. -/
  | unary (op : Operator) (operand : Expr) (id : NodeId)
  /-- An operator between two operands. -/
  | binary (op : Operator) (left right : Expr) (id : NodeId)
  /-- The assignment of a value to a target. -/
  | assign (target value : Expr) (id : NodeId)
  /-- A value that is to be shown. -/
  | print (operand : Expr) (id : NodeId)
  deriving DecidableEq

/-- The kind of a node. -/
inductive NodeKind where
  | literal
  | var
  | unary
  | binary
  | assign
  | print
  deriving DecidableEq

/-- The name of a kind in listings and messages. -/
def NodeKind.name : NodeKind → String
  | literal => "literal"
  | var => "variable"
  | unary => "unary"
  | binary => "binary"
  | assign => "assign"
  | print => "print"

namespace Expr

/-- The number of the root. -/
def id : Expr → NodeId
  | literal _ id => id
  | var _ id => id
  | unary _ _ id => id
  | binary _ _ _ id => id
  | assign _ _ id => id
  | print _ id => id

/-- The kind of the root. -/
def kind : Expr → NodeKind
  | literal _ _ => .literal
  | var _ _ => .var
  | unary _ _ _ => .unary
  | binary _ _ _ _ => .binary
  | assign _ _ _ => .assign
  | print _ _ => .print

/-- The children of the root, from left to right. -/
def children : Expr → List Expr
  | literal _ _ => []
  | var _ _ => []
  | unary _ operand _ => [operand]
  | binary _ left right _ => [left, right]
  | assign target value _ => [target, value]
  | print operand _ => [operand]

/-- The number of nodes on the longest way from the root to a leaf. -/
def depth : Expr → Nat
  | literal _ _ => 1
  | var _ _ => 1
  | unary _ operand _ => operand.depth + 1
  | binary _ left right _ => max left.depth right.depth + 1
  | assign target value _ => max target.depth value.depth + 1
  | print operand _ => operand.depth + 1

/-- The number of nodes. -/
def size : Expr → Nat
  | literal _ _ => 1
  | var _ _ => 1
  | unary _ operand _ => operand.size + 1
  | binary _ left right _ => left.size + right.size + 1
  | assign target value _ => target.size + value.size + 1
  | print operand _ => operand.size + 1

/-- The nodes, each before its children. -/
def preorder : Expr → List Expr
  | e@(literal _ _) => [e]
  | e@(var _ _) => [e]
  | e@(unary _ operand _) => e :: operand.preorder
  | e@(binary _ left right _) => e :: left.preorder ++ right.preorder
  | e@(assign target value _) => e :: target.preorder ++ value.preorder
  | e@(print operand _) => e :: operand.preorder

/-- The nodes, each behind its children. -/
def postorder : Expr → List Expr
  | e@(literal _ _) => [e]
  | e@(var _ _) => [e]
  | e@(unary _ operand _) => operand.postorder ++ [e]
  | e@(binary _ left right _) => left.postorder ++ right.postorder ++ [e]
  | e@(assign target value _) => target.postorder ++ value.postorder ++ [e]
  | e@(print operand _) => operand.postorder ++ [e]

/-- The name that the root assigns to, if it assigns to a variable. -/
def target? : Expr → Option String
  | assign (var name _) _ _ => some name
  | _ => none

/-- The names that the tree assigns to, an outer assignment before the inner ones. -/
def targets (e : Expr) : List String := e.preorder.filterMap target?

/-- Whether the root is an assignment. -/
def isAssign : Expr → Bool
  | assign _ _ _ => true
  | _ => false

theorem length_preorder (e : Expr) : e.preorder.length = e.size := by
  induction e <;> simp_all +arith [preorder, size]

theorem length_postorder (e : Expr) : e.postorder.length = e.size := by
  induction e <;> simp_all +arith [postorder, size]

theorem depth_pos (e : Expr) : 0 < e.depth := by
  cases e <;> simp [depth]

/-! ## Children

The functions above go through the constructors one by one. Where only the children of a node
matter, these equations and the induction over children take their place. -/

theorem children_induction {motive : Expr → Prop}
    (node : ∀ e, (∀ c ∈ e.children, motive c) → motive e) (e : Expr) : motive e := by
  induction e with
  | literal value id | var name id => exact node _ nofun
  | unary op operand id ih | print operand id ih =>
    exact node _ (List.forall_mem_singleton.mpr ih)
  | binary op left right id ihl ihr =>
    exact node _ (List.forall_mem_cons.mpr ⟨ihl, List.forall_mem_singleton.mpr ihr⟩)
  | assign target value id iht ihv =>
    exact node _ (List.forall_mem_cons.mpr ⟨iht, List.forall_mem_singleton.mpr ihv⟩)

theorem preorder_eq (e : Expr) : e.preorder = e :: e.children.flatMap preorder := by
  cases e <;> simp [preorder, children]

theorem postorder_eq (e : Expr) : e.postorder = e.children.flatMap postorder ++ [e] := by
  cases e <;> simp [postorder, children]

theorem self_mem_postorder (e : Expr) : e ∈ e.postorder := by
  rw [postorder_eq]
  exact List.mem_append_right _ (List.mem_singleton_self e)

theorem mem_postorder_iff {e n : Expr} :
    n ∈ e.postorder ↔ n = e ∨ ∃ c ∈ e.children, n ∈ c.postorder := by
  rw [postorder_eq, List.mem_append, List.mem_flatMap, List.mem_singleton, or_comm]

theorem mem_postorder_of_mem_children {e n c : Expr} (hn : n ∈ e.postorder)
    (hc : c ∈ n.children) : c ∈ e.postorder := by
  induction e using children_induction with
  | node e ih =>
    rw [mem_postorder_iff] at hn ⊢
    rcases hn with rfl | ⟨d, hd, hn⟩
    · exact Or.inr ⟨c, hc, self_mem_postorder c⟩
    · exact Or.inr ⟨d, hd, ih d hd hn⟩

theorem depth_eq (e : Expr) : e.depth = ((e.children.map depth).max?.getD 0) + 1 := by
  cases e <;> simp [depth, children, List.max?]

end Expr

/-! ## Numbering nodes -/

/-- The nodes made so far and the number for the next one. -/
structure Numbering where
  next : NodeId
  /-- The nodes made since the numbering began, the last one first. -/
  made : List Expr

namespace Numbering

/-- The numbering that begins with the given number. -/
def start (next : NodeId) : Numbering := ⟨next, []⟩

/-- Makes a node with the next number. -/
def make (k : Numbering) (node : NodeId → Expr) : Expr × Numbering :=
  (node k.next, ⟨k.next + 1, node k.next :: k.made⟩)

end Numbering

end LineCalc
