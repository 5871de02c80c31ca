import LineCalc.Expr.Text
import LineCalc.Proofs.Expr.Shape

/-!
# Constants with explicit signs

A text has no constants with a sign of their own: the minus sign before a number is an operator. A
tree that is built by hand may have them, and it stands for the same statement as the tree with an
operator before each.

* `Expr.literals` are the constants of a tree and `Expr.names` its variables, targets of assignments
  among them, both from left to right.
* `Expr.explicitSigns` puts a minus operator before every constant that has a sign.
* `Expr.literals_explicitSigns` and `Expr.names_explicitSigns`: afterwards the constants have no
  sign, and the variables are the same.
* `Expr.text_explicitSigns`: the text stays the same.
-/

namespace LineCalc

namespace Binary64

variable {v : Binary64}

theorem abs_of_isNegative (h : v.isNegative = true) : v.abs = -v := by
  match v, h with
  | finite true m, _ => rfl
  | infinite true, _ => rfl

theorem abs_of_not_isNegative (h : ¬ v.isNegative = true) : v.abs = v := by
  match v, h with
  | nan, _ => rfl
  | finite false m, _ => rfl
  | infinite false, _ => rfl
  | finite true m, h => exact absurd rfl h
  | infinite true, h => exact absurd rfl h

/-- A sign is written as a minus sign before the opposite number. -/
theorem plain_of_isNegative (h : v.isNegative = true) : v.plain = "-" ++ (-v).plain := by
  match v, h with
  | finite true m, _ =>
    apply String.toList_inj.mp
    rw [String.toList_append]
    simp only [plain, String.toList_ofList]
    rfl
  | infinite true, _ => rfl

end Binary64

namespace Expr

/-- The constants of a tree, from left to right. -/
def literals : Expr → List Binary64
  | literal value _ => [value]
  | var _ _ => []
  | unary _ operand _ => operand.literals
  | binary _ left right _ => left.literals ++ right.literals
  | assign target value _ => target.literals ++ value.literals
  | print operand _ => operand.literals

/-- The names of the variables of a tree, from left to right. -/
def names : Expr → List String
  | literal _ _ => []
  | var name _ => [name]
  | unary _ operand _ => operand.names
  | binary _ left right _ => left.names ++ right.names
  | assign target value _ => target.names ++ value.names
  | print operand _ => operand.names

/-- The tree with a minus operator in place of every sign of a constant. -/
def explicitSigns : Expr → Expr
  | literal value id =>
    if value.isNegative then unary .neg (literal (-value) id) id else literal value id
  | var name id => var name id
  | unary op operand id => unary op operand.explicitSigns id
  | binary op left right id => binary op left.explicitSigns right.explicitSigns id
  | assign target value id => assign target.explicitSigns value.explicitSigns id
  | print operand id => print operand.explicitSigns id

variable {e : Expr}

/-- The constants and variables of a part of a tree are among those of the tree. -/
theorem leaves_subset_of_mem_postorder {n : Expr} (h : n ∈ e.postorder) :
    n.literals ⊆ e.literals ∧ n.names ⊆ e.names := by
  induction e with
  | literal value id | var name id =>
    rw [List.mem_singleton.mp h]
    exact ⟨List.Subset.refl _, List.Subset.refl _⟩
  | unary op operand id ih | print operand id ih =>
    rcases List.mem_append.mp h with h | h
    · exact ih h
    · rw [List.mem_singleton.mp h]
      exact ⟨List.Subset.refl _, List.Subset.refl _⟩
  | binary op left right id ihl ihr | assign left right id ihl ihr =>
    rcases List.mem_append.mp h with h | h
    · rcases List.mem_append.mp h with h | h
      · exact ⟨List.subset_append_of_subset_left _ (ihl h).1,
          List.subset_append_of_subset_left _ (ihl h).2⟩
      · exact ⟨List.subset_append_of_subset_right _ (ihr h).1,
          List.subset_append_of_subset_right _ (ihr h).2⟩
    · rw [List.mem_singleton.mp h]
      exact ⟨List.Subset.refl _, List.Subset.refl _⟩

theorem mem_literals_of_mem_postorder {v : Binary64} {id : NodeId}
    (h : literal v id ∈ e.postorder) : v ∈ e.literals :=
  (leaves_subset_of_mem_postorder h).1 (List.mem_singleton_self v)

theorem mem_names_of_mem_postorder {name : String} {id : NodeId}
    (h : var name id ∈ e.postorder) : name ∈ e.names :=
  (leaves_subset_of_mem_postorder h).2 (List.mem_singleton_self name)

theorem Arithmetic.explicitSigns (h : e.Arithmetic) : e.explicitSigns.Arithmetic := by
  induction h with
  | literal value id =>
    unfold Expr.explicitSigns
    split
    · exact .unary id rfl (.literal _ id)
    · exact .literal value id
  | var name id => exact .var name id
  | unary id hop h ih => exact .unary id hop ih
  | binary id hop hl hr ihl ihr => exact .binary id hop ihl ihr

theorem Assignment.explicitSigns (h : e.Assignment) : e.explicitSigns.Assignment := by
  induction h with
  | value h => exact .value h.explicitSigns
  | assign name target id h ih => exact .assign name target id ih

theorem Statement.explicitSigns (h : e.Statement) : e.explicitSigns.Statement := by
  cases h with
  | silent h => exact .silent h.explicitSigns
  | print id h => exact .print id h.explicitSigns

theorem names_explicitSigns (e : Expr) : e.explicitSigns.names = e.names := by
  induction e with
  | literal value id =>
    unfold explicitSigns
    split <;> rfl
  | var name id => rfl
  | unary op operand id ih => exact ih
  | binary op left right id ihl ihr => simp only [explicitSigns, names, ihl, ihr]
  | assign target value id iht ihv => simp only [explicitSigns, names, iht, ihv]
  | print operand id ih => exact ih

theorem literals_explicitSigns (e : Expr) :
    e.explicitSigns.literals = e.literals.map Binary64.abs := by
  induction e with
  | literal value id =>
    unfold explicitSigns
    split
    · rename_i h
      simp only [literals, List.map_cons, List.map_nil, Binary64.abs_of_isNegative h]
    · rename_i h
      simp only [literals, List.map_cons, List.map_nil, Binary64.abs_of_not_isNegative h]
  | var name id => rfl
  | unary op operand id ih => exact ih
  | binary op left right id ihl ihr =>
    simp only [explicitSigns, literals, ihl, ihr, List.map_append]
  | assign target value id iht ihv =>
    simp only [explicitSigns, literals, iht, ihv, List.map_append]
  | print operand id ih => exact ih

/-- The constants have no signs afterwards. -/
theorem exists_of_mem_literals_explicitSigns (h : ∀ v ∈ e.literals, v.isFinite = true) :
    ∀ v ∈ e.explicitSigns.literals, ∃ m, v = .finite false m := by
  intro v hv
  rw [literals_explicitSigns] at hv
  obtain ⟨w, hw, rfl⟩ := List.mem_map.mp hv
  match w, h w hw with
  | .finite s m, _ => exact ⟨m, rfl⟩

/-- The operator is written where the sign was. -/
theorem text_explicitSigns (e : Expr) : e.explicitSigns.text = e.text := by
  induction e with
  | literal value id =>
    unfold explicitSigns
    split
    · rename_i h
      exact (Binary64.plain_of_isNegative h).symm
    · rfl
  | var name id => rfl
  | unary op operand id ih =>
    unfold explicitSigns
    cases op <;> simp only [text, ih]
  | binary op left right id ihl ihr => simp only [explicitSigns, text, ihl, ihr]
  | assign target value id iht ihv => simp only [explicitSigns, text, iht, ihv]
  | print operand id ih => simp only [explicitSigns, text, ih]

end Expr

end LineCalc
