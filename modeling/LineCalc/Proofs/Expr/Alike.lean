import LineCalc.Expr.Basic

/-!
# Trees up to the numbers of their nodes

The numbers tell nodes apart and carry no meaning. Two trees are alike if nothing but their numbers
tells them apart.

* `Expr.unnumbered` is a tree with all its numbers set to zero, and `Expr.Alike` compares trees that
  way.
* `Expr.Alike.depth_eq`, `Expr.Alike.targets_eq`, `Expr.Alike.isAssign_eq`: what does not look at
  numbers agrees on trees that are alike.
* `Expr.Alike.of_unary` and its companions take a tree apart that is like a given node.
-/

namespace LineCalc

namespace Expr

/-- The tree with all its numbers set to zero. -/
@[simp] def unnumbered : Expr → Expr
  | literal value _ => literal value 0
  | var name _ => var name 0
  | unary op operand _ => unary op operand.unnumbered 0
  | binary op left right _ => binary op left.unnumbered right.unnumbered 0
  | assign target value _ => assign target.unnumbered value.unnumbered 0
  | print operand _ => print operand.unnumbered 0

/-- Two trees that differ in nothing but numbers. -/
def Alike (e f : Expr) : Prop := e.unnumbered = f.unnumbered

instance (e f : Expr) : Decidable (Alike e f) := inferInstanceAs (Decidable (_ = _))

namespace Alike

variable {e f g : Expr}

theorem refl (e : Expr) : Alike e e := rfl

theorem symm (h : Alike e f) : Alike f e := Eq.symm h

theorem trans (h : Alike e f) (h' : Alike f g) : Alike e g := Eq.trans h h'

theorem literal (value : Binary64) (i j : NodeId) : Alike (.literal value i) (.literal value j) :=
  rfl

theorem var (name : String) (i j : NodeId) : Alike (.var name i) (.var name j) := rfl

theorem unary (h : Alike e f) (op : Operator) (i j : NodeId) :
    Alike (.unary op e i) (.unary op f j) := by
  have he : e.unnumbered = f.unnumbered := h
  simp only [Alike, unnumbered, he]

theorem binary {l r : Expr} (h : Alike e f) (h' : Alike l r) (op : Operator) (i j : NodeId) :
    Alike (.binary op e l i) (.binary op f r j) := by
  have he : e.unnumbered = f.unnumbered := h
  have hl : l.unnumbered = r.unnumbered := h'
  simp only [Alike, unnumbered, he, hl]

theorem assign (h : Alike e f) (name : String) (i j i' j' : NodeId) :
    Alike (.assign (.var name i) e j) (.assign (.var name i') f j') := by
  have he : e.unnumbered = f.unnumbered := h
  simp only [Alike, unnumbered, he]

theorem print (h : Alike e f) (i j : NodeId) : Alike (.print e i) (.print f j) := by
  have he : e.unnumbered = f.unnumbered := h
  simp only [Alike, unnumbered, he]

/-! ## Trees like a given node -/

theorem of_literal {value : Binary64} {i : NodeId} (h : Alike (.literal value i) g) :
    ∃ j, g = .literal value j := by
  cases g <;> simp_all [Alike, unnumbered]

theorem of_var {name : String} {i : NodeId} (h : Alike (.var name i) g) : ∃ j, g = .var name j := by
  cases g <;> simp_all [Alike, unnumbered]

theorem of_unary {op : Operator} {i : NodeId} (h : Alike (.unary op e i) g) :
    ∃ f j, Alike e f ∧ g = .unary op f j := by
  cases g <;> simp_all [Alike, unnumbered]

theorem of_binary {op : Operator} {l : Expr} {i : NodeId} (h : Alike (.binary op e l i) g) :
    ∃ f r j, Alike e f ∧ Alike l r ∧ g = .binary op f r j := by
  cases g <;> simp_all [Alike, unnumbered]

theorem of_assign {t : Expr} {i : NodeId} (h : Alike (.assign t e i) g) :
    ∃ u f j, Alike t u ∧ Alike e f ∧ g = .assign u f j := by
  cases g <;> simp_all [Alike, unnumbered]

theorem of_print {i : NodeId} (h : Alike (.print e i) g) : ∃ f j, Alike e f ∧ g = .print f j := by
  cases g <;> simp_all [Alike, unnumbered]

end Alike

/-! ## What does not look at numbers -/

theorem depth_unnumbered (e : Expr) : e.unnumbered.depth = e.depth := by
  induction e <;> simp_all [unnumbered, depth]

theorem target?_unnumbered (e : Expr) : e.unnumbered.target? = e.target? := by
  cases e with
  | assign target value id => cases target <;> rfl
  | _ => rfl

theorem preorder_unnumbered (e : Expr) : e.unnumbered.preorder = e.preorder.map unnumbered := by
  induction e <;> simp_all [unnumbered, preorder]

theorem targets_unnumbered (e : Expr) : e.unnumbered.targets = e.targets := by
  simp only [targets, preorder_unnumbered, List.filterMap_map, Function.comp_def,
    target?_unnumbered]

theorem isAssign_unnumbered (e : Expr) : e.unnumbered.isAssign = e.isAssign := by
  cases e <;> rfl

namespace Alike

variable {e f : Expr}

theorem depth_eq (h : Alike e f) : e.depth = f.depth := by
  rw [← depth_unnumbered e, ← depth_unnumbered f, h]

theorem targets_eq (h : Alike e f) : e.targets = f.targets := by
  rw [← targets_unnumbered e, ← targets_unnumbered f, h]

theorem isAssign_eq (h : Alike e f) : e.isAssign = f.isAssign := by
  rw [← isAssign_unnumbered e, ← isAssign_unnumbered f, h]

end Alike

end Expr

end LineCalc
