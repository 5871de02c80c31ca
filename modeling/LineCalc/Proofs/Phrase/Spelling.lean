import LineCalc.Proofs.Expr.Signs
import LineCalc.Proofs.Phrase.Derivation
import LineCalc.Proofs.Phrase.Nesting
import LineCalc.Proofs.Token.Lexeme

/-!
# The spelling of a tree

A tree is spelled with every operation on two operands in parentheses. The grammar reads the
spelling back as the tree, and the parentheses nest no deeper than the tree does.

* `Expr.spelling` are the tokens, and `Expr.Statement.derives_spelling` reads them back.
* `Derives.leaves_eq`: the constants and variables of a phrase are the numbers and identifiers among
  its tokens, in the same order.
* `Expr.Statement.nests_spelling` bounds the nesting.
-/

namespace LineCalc

/-! ## Signs of operators -/

/-- The sign that an operator is written with. -/
def Operator.sign : Operator → Token
  | add => .plus
  | sub => .minus
  | mul => .star
  | div => .slash
  | mod => .percent
  | abs => .plus
  | neg => .minus

theorem Operator.prefixSign {op : Operator} (h : op.isUnary = true) : PrefixSign op.sign op := by
  cases op with
  | abs => exact .plus
  | neg => exact .minus
  | _ => cases h

theorem Operator.termSign_or_factorSign {op : Operator} (h : op.isBinary = true) :
    TermSign op.sign op ∨ FactorSign op.sign op := by
  cases op with
  | add => exact Or.inl .plus
  | sub => exact Or.inl .minus
  | mul => exact Or.inr .star
  | div => exact Or.inr .slash
  | mod => exact Or.inr .percent
  | _ => cases h

/-! ## Spelling -/

namespace Expr

/-- The tokens that a tree is written with. -/
def spelling : Expr → List Token
  | literal value _ => [.number value]
  | var name _ => [.identifier name]
  | unary op operand _ => op.sign :: operand.spelling
  | binary op left right _ =>
    .opening :: (left.spelling ++ op.sign :: right.spelling) ++ [.closing]
  | assign target value _ => target.spelling ++ .equals :: value.spelling
  | print operand _ => .print :: operand.spelling

variable {e : Expr}

/-- Arithmetic is spelled as a factor, so it can stand behind every sign. -/
theorem Arithmetic.derives_spelling (h : e.Arithmetic) : Derives .factor e.spelling e := by
  induction h with
  | literal value id => exact .plain (.number value id)
  | var name id => exact .plain (.name name id)
  | unary id hop h ih => exact .sign id (Operator.prefixSign hop) ih
  | binary id hop hl hr ihl ihr =>
    refine .plain (.group ?_)
    rcases Operator.termSign_or_factorSign hop with hs | hs
    · exact .nextTerm id (.firstTerm (.firstFactor ihl)) hs (.firstFactor ihr)
    · exact .firstTerm (.nextFactor id (.firstFactor ihl) hs ihr)

theorem Assignment.derives_spelling (h : e.Assignment) : Derives .assignment e.spelling e := by
  induction h with
  | value h => exact .value (.firstTerm (.firstFactor h.derives_spelling))
  | assign name target id h ih => exact .assign name target id ih

/-- The grammar reads the spelling of a statement back as the statement. -/
theorem Statement.derives_spelling (h : e.Statement) : Derives .statement e.spelling e := by
  cases h with
  | silent h => exact .silent h.derives_spelling
  | print id h => exact .print id h.derives_spelling

end Expr

/-! ## Constants and variables -/

/-- The number that a token carries. -/
def Token.number? : Token → Option Binary64
  | number value => some value
  | _ => none

/-- The name that a token carries. -/
def Token.identifier? : Token → Option String
  | identifier name => some name
  | _ => none

namespace Derives

variable {c : Category} {ts : List Token} {e : Expr}

/-- The constants of a phrase are the numbers among its tokens, and its variables are the
identifiers. -/
theorem leaves_eq (h : Derives c ts e) :
    e.literals = ts.filterMap Token.number? ∧ e.names = ts.filterMap Token.identifier? := by
  induction h with
  | print id h ih => exact ih
  | silent h ih => exact ih
  | assign name target id h ih => exact ⟨ih.1, congrArg _ ih.2⟩
  | value h ih => exact ih
  | firstTerm h ih => exact ih
  | nextTerm id hl ht hr ihl ihr =>
    simp only [Expr.literals, Expr.names, ihl, ihr, List.filterMap_append]
    cases ht <;> exact ⟨rfl, rfl⟩
  | firstFactor h ih => exact ih
  | nextFactor id hl ht hr ihl ihr =>
    simp only [Expr.literals, Expr.names, ihl, ihr, List.filterMap_append]
    cases ht <;> exact ⟨rfl, rfl⟩
  | sign id ht h ih => cases ht <;> exact ih
  | plain h ih => exact ih
  | number value id => exact ⟨rfl, rfl⟩
  | name name id => exact ⟨rfl, rfl⟩
  | group h ih =>
    simp only [List.cons_append, List.filterMap_cons, List.filterMap_append, Token.number?,
      Token.identifier?, List.filterMap_nil, List.append_nil]
    exact ih

/-- Tokens of a text are read as constants without signs and as names. -/
theorem literals_of_written (h : Derives c ts e) (hw : ∀ t ∈ ts, t.Written) :
    ∀ v ∈ e.literals, ∃ m, v = .finite false m := by
  intro v hv
  rw [h.leaves_eq.1] at hv
  obtain ⟨t, ht, hn⟩ := List.mem_filterMap.mp hv
  cases t with
  | number value =>
    obtain rfl := Option.some.inj hn
    exact hw _ ht
  | _ => cases hn

theorem names_of_written (h : Derives c ts e) (hw : ∀ t ∈ ts, t.Written) :
    ∀ name ∈ e.names, IsName name := by
  intro name hm
  rw [h.leaves_eq.2] at hm
  obtain ⟨t, ht, hn⟩ := List.mem_filterMap.mp hm
  cases t with
  | identifier name =>
    obtain rfl := Option.some.inj hn
    exact hw _ ht
  | _ => cases hn

/-- Constants without signs and names are read from tokens that a text can have. -/
theorem written_of_leaves (h : Derives c ts e) (hv : ∀ v ∈ e.literals, ∃ m, v = .finite false m)
    (hn : ∀ name ∈ e.names, IsName name) : ∀ t ∈ ts, t.Written := by
  intro t ht
  rw [h.leaves_eq.1] at hv
  rw [h.leaves_eq.2] at hn
  cases t with
  | number value => exact hv value (List.mem_filterMap.mpr ⟨_, ht, rfl⟩)
  | identifier name => exact hn name (List.mem_filterMap.mpr ⟨_, ht, rfl⟩)
  | _ => trivial

end Derives

/-! ## Nesting -/

theorem Operator.openedBehind_sign (op : Operator) (opened : Nat) :
    op.sign.openedBehind opened = opened := by
  cases op <;> rfl

namespace Expr

variable {e : Expr}

theorem Arithmetic.nests_spelling (h : e.Arithmetic) : Nests e.depth e.spelling := by
  induction h with
  | literal value id => exact (Nests.nil.cons fun _ => rfl).mono (Nat.zero_le _)
  | var name id => exact (Nests.nil.cons fun _ => rfl).mono (Nat.zero_le _)
  | @unary op e id hop h ih => exact (ih.cons op.openedBehind_sign).mono (Nat.le_succ _)
  | @binary op l r id hop hl hr ihl ihr =>
    have hl' := ihl.mono (Nat.le_max_left l.depth r.depth)
    have hr' := ihr.mono (Nat.le_max_right l.depth r.depth)
    exact (hl'.append (hr'.cons op.openedBehind_sign)).group

theorem Assignment.nests_spelling (h : e.Assignment) : Nests e.depth e.spelling := by
  induction h with
  | value h => exact h.nests_spelling
  | @assign e name target id h ih =>
    refine ((ih.cons fun _ => rfl).cons fun _ => rfl).mono ?_
    simp only [depth]
    omega

/-- The parentheses of a spelling nest no deeper than the tree. -/
theorem Statement.nests_spelling (h : e.Statement) : Nests e.depth e.spelling := by
  cases h with
  | silent h => exact h.nests_spelling
  | print id h => exact (h.nests_spelling.cons fun _ => rfl).mono (Nat.le_succ _)

end Expr

end LineCalc
