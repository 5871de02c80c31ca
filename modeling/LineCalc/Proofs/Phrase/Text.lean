import LineCalc.Proofs.Phrase.Soundness
import LineCalc.Proofs.Phrase.Spelling

/-!
# The text of a tree

The tokens of the text of a statement are its spelling.

* `Expr.Arithmetic.spells_text` and its companions put the pieces of a text together. Behind every
  name and every number stands a space, a closing parenthesis or the end of the text.
* `Expr.Statement.tokenize_text` is about the whole text.
-/

namespace LineCalc

namespace Expr

variable {e : Expr} {line : Nat} {rest : List Char}

theorem spells_sign_of_isBinary {op : Operator} (h : op.isBinary = true) :
    Spells line op.symbol.toList [op.sign] (' ' :: rest) := by
  cases op with
  | abs | neg => cases h
  | _ => exact spells_sign rfl rfl

/-- The text of arithmetic whose leaves can be written spells its spelling. -/
theorem Arithmetic.spells_text (h : e.Arithmetic) (hw : ∀ t ∈ e.spelling, t.Written)
    (hrest : AtBoundary rest) : Spells line e.text.toList e.spelling rest := by
  induction h generalizing rest with
  | literal value id =>
    obtain ⟨m, rfl⟩ := hw _ List.mem_cons_self
    simp only [text, Binary64.plain, String.toList_ofList]
    exact spells_number m hrest
  | var name id => exact spells_name (hw _ List.mem_cons_self) (hrest.endsRun rfl rfl)
  | @unary op e id hop h ih =>
    have hoperand := ih (fun t ht => hw t (List.mem_cons_of_mem _ ht)) hrest
    cases op with
    | abs =>
      simp only [text, String.toList_append]
      exact Spells.append (spells_sign rfl rfl) hoperand
    | neg =>
      simp only [text, String.toList_append]
      exact Spells.append (spells_sign rfl rfl) hoperand
    | _ => cases hop
  | @binary op l r id hop hl hr ihl ihr =>
    have hwl : ∀ t ∈ l.spelling, t.Written := fun t ht => hw t (by simp [spelling, ht])
    have hwr : ∀ t ∈ r.spelling, t.Written := fun t ht => hw t (by simp [spelling, ht])
    have hspells : Spells line
        (['('] ++ l.text.toList ++ [' '] ++ op.symbol.toList ++ [' '] ++ r.text.toList ++ [')'])
        ([.opening] ++ l.spelling ++ [] ++ [op.sign] ++ [] ++ r.spelling ++ [.closing]) rest := by
      refine .append (.append (.append (.append (.append (.append ?_ ?_) ?_) ?_) ?_) ?_) ?_
      · exact spells_sign rfl rfl
      · exact ihl hwl (atBoundary_space _)
      · exact spells_space
      · exact spells_sign_of_isBinary hop
      · exact spells_space
      · exact ihr hwr (atBoundary_closing _)
      · exact spells_sign rfl rfl
    simpa [text, spelling] using hspells

theorem Assignment.spells_text (h : e.Assignment) (hw : ∀ t ∈ e.spelling, t.Written) :
    Spells line e.text.toList e.spelling [] := by
  induction h with
  | value h => exact h.spells_text hw atBoundary_nil
  | @assign e name target id h ih =>
    have hvalue := ih fun t ht => hw t (by simp [spelling, ht])
    have hspells : Spells line (name.toList ++ [' '] ++ ['='] ++ [' '] ++ e.text.toList)
        ([.identifier name] ++ [] ++ [.equals] ++ [] ++ e.spelling) [] := by
      refine .append (.append (.append (.append ?_ ?_) ?_) ?_) hvalue
      · exact spells_name (hw _ List.mem_cons_self) ((atBoundary_space _).endsRun rfl rfl)
      · exact spells_space
      · exact spells_sign rfl rfl
      · exact spells_space
    simpa [text, spelling] using hspells

/-- The text of a statement whose leaves can be written spells its spelling. -/
theorem Statement.spells_text (h : e.Statement) (hw : ∀ t ∈ e.spelling, t.Written) :
    Spells line e.text.toList e.spelling [] := by
  cases h with
  | silent h => exact h.spells_text hw
  | @print e id h =>
    have hvalue : Spells line e.text.toList e.spelling [] :=
      h.spells_text fun t ht => hw t (List.mem_cons_of_mem _ ht)
    have hspells : Spells line (['p', 'r', 'i', 'n', 't'] ++ [' '] ++ e.text.toList)
        ([.print] ++ [] ++ e.spelling) [] := by
      refine .append (.append ?_ ?_) hvalue
      · exact spells_print ((atBoundary_space _).endsRun rfl rfl)
      · exact spells_space
    simpa [text, spelling] using hspells

/-- The tokens of a text are its spelling. -/
theorem Statement.tokenize_text (h : e.Statement) (hw : ∀ t ∈ e.spelling, t.Written) :
    ∃ ts, tokenize e.text line = .ok ts ∧ tokens ts = e.spelling := by
  refine ⟨e.spelling.map (⟨·, line⟩), (h.spells_text hw).tokenizeChars_eq, ?_⟩
  simp only [List.map_map, Function.comp_def, List.map_id']

end Expr

end LineCalc
