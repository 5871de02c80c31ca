import LineCalc.Expr.Basic

/-!
# Texts of trees

Three ways to show a tree, with their names in the module `ast` of the specification (10.1).

* `Expr.text` is a statement again, with every operation on two operands in parentheses (`Display`).
* `Expr.listing` has one line for each node, children before their parents (`dump`).
* `Expr.graph` is a graph in the language of Graphviz, with a vertex for each node and an edge from
  each parent to each of its children (`to_dot`).
-/

namespace LineCalc

namespace Expr

/-- The tree as a statement. -/
def text : Expr → String
  | literal value _ => value.plain
  | var name _ => name
  | unary .abs operand _ => "+" ++ operand.text
  | unary .neg operand _ => "-" ++ operand.text
  | unary op operand _ => op.symbol ++ "(" ++ operand.text ++ ")"
  | binary op left right _ => "(" ++ left.text ++ " " ++ op.symbol ++ " " ++ right.text ++ ")"
  | assign target value _ => target.text ++ " = " ++ value.text
  | print operand _ => "print " ++ operand.text

/-! ## Listings -/

/-- What a listing says about the root. -/
def description : Expr → String
  | literal value _ => "literal value: " ++ value.fixed
  | var name _ => "variable name: " ++ name
  | unary op _ _ => "unary node op: " ++ op.symbol
  | binary op _ _ _ => "binary node op: " ++ op.symbol
  | assign _ _ _ => "assign node"
  | print _ _ => "print node"

/-- The line of a listing for the root. -/
def listingLine (e : Expr) : String := "#" ++ toString e.id ++ " " ++ e.description ++ "\n"

/-- The listing of a tree: a line for each node, children before their parents. -/
def listing (e : Expr) : String := String.join (e.postorder.map listingLine)

/-! ## Graphs -/

/-- What a graph writes into the vertex of the root. -/
def label : Expr → String
  | literal value _ => value.plain
  | var name _ => name
  | unary op _ _ => op.symbol
  | binary op _ _ _ => op.symbol
  | assign _ _ _ => "="
  | print _ _ => "print"

/-- A part of a graph. -/
inductive GraphItem where
  /-- The vertex of a node. -/
  | vertex (id : NodeId) (label : String)
  /-- The edge from a parent to a child. -/
  | edge (parent child : NodeId)
  deriving DecidableEq

/-- The line of a graph for one of its parts. -/
def GraphItem.line : GraphItem → String
  | vertex id label => "    n" ++ toString id ++ " [label=\"" ++ label ++ "\"];\n"
  | edge parent child => "    n" ++ toString parent ++ " -> n" ++ toString child ++ ";\n"

/-- The parts of the graph: the vertex of the root, and then for each child the edge to it and its
own graph. -/
def graphItems : Expr → List GraphItem
  | e@(literal _ id) => [.vertex id e.label]
  | e@(var _ id) => [.vertex id e.label]
  | e@(unary _ operand id) => .vertex id e.label :: .edge id operand.id :: operand.graphItems
  | e@(binary _ left right id) =>
    .vertex id e.label :: .edge id left.id :: left.graphItems ++
      .edge id right.id :: right.graphItems
  | e@(assign target value id) =>
    .vertex id e.label :: .edge id target.id :: target.graphItems ++
      .edge id value.id :: value.graphItems
  | e@(print operand id) => .vertex id e.label :: .edge id operand.id :: operand.graphItems

theorem graphItems_eq (e : Expr) :
    e.graphItems = .vertex e.id e.label ::
      e.children.flatMap fun c => .edge e.id c.id :: c.graphItems := by
  cases e <;> simp [graphItems, children, id]

/-- The graph of a tree. -/
def graph (e : Expr) : String :=
  "digraph ast \x7b\n" ++ String.join (e.graphItems.map GraphItem.line) ++ "\x7d\n"

end Expr

end LineCalc
