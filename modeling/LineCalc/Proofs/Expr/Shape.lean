import LineCalc.Expr.Basic

/-!
# The shape of statements

A statement is arithmetic below assignments to variables, with or without the word `print` on top.
Trees that are built by hand can have other shapes; those that are read cannot.

* `Expr.Arithmetic`, `Expr.Assignment` and `Expr.Statement` are the three layers.
* `Expr.body` is the arithmetic of a statement.
* `Expr.targets_assign`, `Expr.targets_print` and `Expr.Arithmetic.targets_eq_nil` give the names
  that a statement assigns to, layer by layer.
-/

namespace LineCalc

namespace Expr

/-- Constants, variables, and operators that fit their nodes. -/
inductive Arithmetic : Expr → Prop
  | literal (value : Binary64) (id : NodeId) : Arithmetic (literal value id)
  | var (name : String) (id : NodeId) : Arithmetic (var name id)
  | unary {op : Operator} {e : Expr} (id : NodeId) (hop : op.isUnary = true) (h : Arithmetic e) :
      Arithmetic (unary op e id)
  | binary {op : Operator} {l r : Expr} (id : NodeId) (hop : op.isBinary = true)
      (hl : Arithmetic l) (hr : Arithmetic r) : Arithmetic (binary op l r id)

/-- Arithmetic below any number of assignments to variables. -/
inductive Assignment : Expr → Prop
  | value {e : Expr} (h : Arithmetic e) : Assignment e
  | assign {e : Expr} (name : String) (target id : NodeId) (h : Assignment e) :
      Assignment (assign (var name target) e id)

/-- What a line can hold. -/
inductive Statement : Expr → Prop
  | silent {e : Expr} (h : Assignment e) : Statement e
  | print {e : Expr} (id : NodeId) (h : Assignment e) : Statement (print e id)

/-- What is below the word `print` and the assignments. -/
def body : Expr → Expr
  | assign _ value _ => value.body
  | print operand _ => operand.body
  | e => e

theorem Arithmetic.body_eq {e : Expr} (h : Arithmetic e) : e.body = e := by
  cases h <;> rfl

theorem Assignment.body_arithmetic {e : Expr} (h : Assignment e) : e.body.Arithmetic := by
  induction h with
  | value h => rwa [h.body_eq]
  | assign name target id h ih => exact ih

theorem Statement.body_arithmetic {e : Expr} (h : Statement e) : e.body.Arithmetic := by
  cases h with
  | silent h => exact h.body_arithmetic
  | print id h => exact h.body_arithmetic

/-! ## The names that are assigned to -/

theorem targets_unary (op : Operator) (e : Expr) (id : NodeId) :
    (unary op e id).targets = e.targets := List.filterMap_cons_none rfl

theorem targets_binary (op : Operator) (l r : Expr) (id : NodeId) :
    (binary op l r id).targets = l.targets ++ r.targets := by
  unfold targets
  rw [preorder, List.cons_append, List.filterMap_cons_none rfl, List.filterMap_append]

theorem targets_assign (name : String) (target id : NodeId) (e : Expr) :
    (assign (var name target) e id).targets = name :: e.targets := by
  have ht : (assign (var name target) e id).target? = some name := rfl
  unfold targets
  rw [preorder, preorder, List.cons_append, List.filterMap_cons_some ht]
  exact congrArg _ (List.filterMap_cons_none rfl)

theorem targets_print (e : Expr) (id : NodeId) : (print e id).targets = e.targets :=
  List.filterMap_cons_none rfl

theorem Arithmetic.targets_eq_nil {e : Expr} (h : Arithmetic e) : e.targets = [] := by
  induction h with
  | literal | var => rfl
  | unary id hop h ih => rw [targets_unary, ih]
  | binary id hop hl hr ihl ihr => rw [targets_binary, ihl, ihr, List.append_nil]

end Expr

end LineCalc
