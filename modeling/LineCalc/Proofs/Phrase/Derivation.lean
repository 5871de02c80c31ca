import LineCalc.Phrase
import LineCalc.Proofs.Expr.Alike
import LineCalc.Proofs.Expr.Shape

/-!
# The grammar of statements

The grammar says which lists of tokens are phrases, and which trees they stand for, without saying
how they are read.

```text
statement  := "print" assignment | assignment
assignment := name "=" assignment | expression
expression := term (("+" | "-") term)*
term       := factor (("*" | "/" | "%") factor)*
factor     := ("+" | "-") factor | operand
operand    := number | name | "(" expression ")"
```

* `Category` names the six kinds of phrases, and `Derives c ts e` says that the tokens `ts` are a
  phrase of the kind `c` with the tree `e`. A repetition associates to the left: it is put together
  from what stands before its last sign and from what stands behind it. A derivation says nothing of
  the numbers in a tree (`Derives.of_alike`).
* `TermSign`, `FactorSign` and `PrefixSign` say which operators the signs stand for.
* `Derives.isArithmetic_of_mem`: no arithmetic has an equals sign or the word `print` in it, so
  these two tell the other phrases apart from it.
* `Derives.shape`: the tree of a phrase has the shape that belongs to its kind.
-/

namespace LineCalc

/-! ## Signs -/

/-- The signs between terms. -/
inductive TermSign : Token → Operator → Prop
  | plus : TermSign .plus .add
  | minus : TermSign .minus .sub

/-- The signs between factors. -/
inductive FactorSign : Token → Operator → Prop
  | star : FactorSign .star .mul
  | slash : FactorSign .slash .div
  | percent : FactorSign .percent .mod

/-- The signs before an operand. -/
inductive PrefixSign : Token → Operator → Prop
  | plus : PrefixSign .plus .abs
  | minus : PrefixSign .minus .neg

variable {t : Token} {op : Operator}

theorem ofTermSign?_eq_some_iff : Operator.ofTermSign? t = some op ↔ TermSign t op := by
  constructor
  · intro h
    cases t <;> simp only [Operator.ofTermSign?, reduceCtorEq, Option.some.injEq] at h
    · exact h ▸ .plus
    · exact h ▸ .minus
  · rintro (_ | _) <;> rfl

theorem TermSign.ofFactorSign?_eq_none (h : TermSign t op) : Operator.ofFactorSign? t = none := by
  cases h <;> rfl

theorem TermSign.isBinary (h : TermSign t op) : op.isBinary = true := by
  cases h <;> rfl

theorem FactorSign.isBinary (h : FactorSign t op) : op.isBinary = true := by
  cases h <;> rfl

theorem PrefixSign.isUnary (h : PrefixSign t op) : op.isUnary = true := by
  cases h <;> rfl

theorem ofFactorSign?_eq_some_iff : Operator.ofFactorSign? t = some op ↔ FactorSign t op := by
  constructor
  · intro h
    cases t <;> simp only [Operator.ofFactorSign?, reduceCtorEq, Option.some.injEq] at h
    · exact h ▸ .star
    · exact h ▸ .slash
    · exact h ▸ .percent
  · rintro (_ | _ | _) <;> rfl

theorem ofPrefixSign?_eq_some_iff : Operator.ofPrefixSign? t = some op ↔ PrefixSign t op := by
  constructor
  · intro h
    cases t <;> simp only [Operator.ofPrefixSign?, reduceCtorEq, Option.some.injEq] at h
    · exact h ▸ .plus
    · exact h ▸ .minus
  · rintro (_ | _) <;> rfl

/-! ## Derivations -/

/-- The kinds of phrases. -/
inductive Category where
  | statement
  | assignment
  | expression
  | term
  | factor
  | operand
  deriving DecidableEq

/-- Whether a kind of phrases is arithmetic. -/
def Category.isArithmetic : Category → Bool
  | statement | assignment => false
  | _ => true

/-- Whether a token can stand in arithmetic. -/
def Token.isArithmetic : Token → Bool
  | equals | print => false
  | _ => true

/-- **The grammar**: the tokens are a phrase of the given kind, and the tree is what it stands
for. -/
inductive Derives : Category → List Token → Expr → Prop
  | print {ts : List Token} {e : Expr} (id : NodeId) (h : Derives .assignment ts e) :
      Derives .statement (.print :: ts) (.print e id)
  | silent {ts : List Token} {e : Expr} (h : Derives .assignment ts e) : Derives .statement ts e
  | assign {ts : List Token} {e : Expr} (name : String) (target id : NodeId)
      (h : Derives .assignment ts e) :
      Derives .assignment (.identifier name :: .equals :: ts) (.assign (.var name target) e id)
  | value {ts : List Token} {e : Expr} (h : Derives .expression ts e) : Derives .assignment ts e
  | firstTerm {ts : List Token} {e : Expr} (h : Derives .term ts e) : Derives .expression ts e
  | nextTerm {ts us : List Token} {e f : Expr} {t : Token} {op : Operator} (id : NodeId)
      (hl : Derives .expression ts e) (ht : TermSign t op) (hr : Derives .term us f) :
      Derives .expression (ts ++ t :: us) (.binary op e f id)
  | firstFactor {ts : List Token} {e : Expr} (h : Derives .factor ts e) : Derives .term ts e
  | nextFactor {ts us : List Token} {e f : Expr} {t : Token} {op : Operator} (id : NodeId)
      (hl : Derives .term ts e) (ht : FactorSign t op) (hr : Derives .factor us f) :
      Derives .term (ts ++ t :: us) (.binary op e f id)
  | sign {ts : List Token} {e : Expr} {t : Token} {op : Operator} (id : NodeId)
      (ht : PrefixSign t op) (h : Derives .factor ts e) :
      Derives .factor (t :: ts) (.unary op e id)
  | plain {ts : List Token} {e : Expr} (h : Derives .operand ts e) : Derives .factor ts e
  | number (value : Binary64) (id : NodeId) :
      Derives .operand [.number value] (.literal value id)
  | name (name : String) (id : NodeId) : Derives .operand [.identifier name] (.var name id)
  | group {ts : List Token} {e : Expr} (h : Derives .expression ts e) :
      Derives .operand (.opening :: ts ++ [.closing]) e

namespace Derives

variable {c : Category} {ts : List Token} {e f : Expr}

/-- A derivation says nothing of the numbers in its tree. -/
theorem of_alike (h : Derives c ts e) (hf : e.Alike f) : Derives c ts f := by
  induction h generalizing f with
  | print id h ih =>
    obtain ⟨g, j, hg, rfl⟩ := hf.of_print
    exact .print j (ih hg)
  | silent h ih => exact .silent (ih hf)
  | assign name target id h ih =>
    obtain ⟨u, g, j, hu, hg, rfl⟩ := hf.of_assign
    obtain ⟨i, rfl⟩ := hu.of_var
    exact .assign name i j (ih hg)
  | value h ih => exact .value (ih hf)
  | firstTerm h ih => exact .firstTerm (ih hf)
  | nextTerm id hl ht hr ihl ihr =>
    obtain ⟨g, r, j, hg, hr, rfl⟩ := hf.of_binary
    exact .nextTerm j (ihl hg) ht (ihr hr)
  | firstFactor h ih => exact .firstFactor (ih hf)
  | nextFactor id hl ht hr ihl ihr =>
    obtain ⟨g, r, j, hg, hr, rfl⟩ := hf.of_binary
    exact .nextFactor j (ihl hg) ht (ihr hr)
  | sign id ht h ih =>
    obtain ⟨g, j, hg, rfl⟩ := hf.of_unary
    exact .sign j ht (ih hg)
  | plain h ih => exact .plain (ih hf)
  | number value id =>
    obtain ⟨j, rfl⟩ := hf.of_literal
    exact .number value j
  | name name id =>
    obtain ⟨j, rfl⟩ := hf.of_var
    exact .name name j
  | group h ih => exact .group (ih hf)

/-- No arithmetic has an equals sign or the word `print` in it. -/
theorem isArithmetic_of_mem (h : Derives c ts e) (hc : c.isArithmetic = true) {t : Token}
    (ht : t ∈ ts) : t.isArithmetic = true := by
  induction h with
  | print | silent | assign | value => cases hc
  | firstTerm h ih => exact ih rfl ht
  | nextTerm id hl hs hr ihl ihr =>
    rcases List.mem_append.mp ht with ht | ht
    · exact ihl rfl ht
    · rcases List.mem_cons.mp ht with rfl | ht
      · cases hs <;> rfl
      · exact ihr rfl ht
  | firstFactor h ih => exact ih rfl ht
  | nextFactor id hl hs hr ihl ihr =>
    rcases List.mem_append.mp ht with ht | ht
    · exact ihl rfl ht
    · rcases List.mem_cons.mp ht with rfl | ht
      · cases hs <;> rfl
      · exact ihr rfl ht
  | sign id hs h ih =>
    rcases List.mem_cons.mp ht with rfl | ht
    · cases hs <;> rfl
    · exact ih rfl ht
  | plain h ih => exact ih rfl ht
  | number value id => exact List.mem_singleton.mp ht ▸ rfl
  | name name id => exact List.mem_singleton.mp ht ▸ rfl
  | group h ih =>
    simp only [List.cons_append, List.mem_cons, List.mem_append, List.not_mem_nil, or_false] at ht
    rcases ht with rfl | ht | rfl
    · rfl
    · exact ih rfl ht
    · rfl

/-- The shape of the trees that belong to a kind of phrases. -/
def Shape : Category → Expr → Prop
  | .statement => Expr.Statement
  | .assignment => Expr.Assignment
  | _ => Expr.Arithmetic

/-- The tree of a phrase has the shape that belongs to its kind. -/
theorem shape (h : Derives c ts e) : Shape c e := by
  induction h with
  | print id h ih => exact .print id ih
  | silent h ih => exact .silent ih
  | assign name target id h ih => exact .assign name target id ih
  | value h ih => exact .value ih
  | firstTerm h ih => exact ih
  | nextTerm id hl hs hr ihl ihr => exact .binary id hs.isBinary ihl ihr
  | firstFactor h ih => exact ih
  | nextFactor id hl hs hr ihl ihr => exact .binary id hs.isBinary ihl ihr
  | sign id hs h ih => exact .unary id hs.isUnary ih
  | plain h ih => exact ih
  | number value id => exact .literal value id
  | name name id => exact .var name id
  | group h ih => exact ih

end Derives

end LineCalc
