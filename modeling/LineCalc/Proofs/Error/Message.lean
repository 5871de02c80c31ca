import LineCalc.Proofs.Binary64.Text
import LineCalc.Proofs.Phrase.Blame
import LineCalc.Proofs.Session.Denotation
import LineCalc.Proofs.Session.RoundTrip
import LineCalc.Proofs.Text.Lines

/-!
# Messages are one line each

A message shows a piece of the line that is wrong: a character, a number, a token or a name. None of
these has a line end in it, so every message is one line.

* `oneLine_text` is about tokens, and `oneLine_of_fails` about texts without tokens.
* `oneLine_message_of_readLine`: the message of every syntax error is one line.
* `Error.OfLine` are the errors that a line can raise, and `ofLine_of_runLine` says that there are
  no others. Their messages do not show the numbers of nodes: `Error.OfLine.message_eq`.
-/

namespace LineCalc

/-! ## Parts of messages -/

/-- The characters of names stand in quotations as they are. -/
theorem escape_of_isWordPart {c : Char} (h : isWordPart c = true) : escape c = [c] := by
  have hc : 0x20 ≤ c.toNat ∧ c.toNat < 0x7f :=
    ⟨Nat.le_trans (by decide) (graphic_of_isWordPart h).1,
      Nat.lt_of_le_of_lt (graphic_of_isWordPart h).2 (by decide)⟩
  unfold escape
  split
  -- None of the characters with an escape of its own is part of a word.
  case h_7 => rw [isInvisible_of_ascii hc.1 hc.2, if_neg Bool.false_ne_true]
  all_goals cases h

theorem Token.Written.oneLine_text {t : Token} (h : t.Written) : OneLine t.text := by
  cases t with
  | number value =>
    obtain ⟨m, rfl⟩ := h
    exact (OneLine.append (by decide) (Binary64.oneLine_explicit m)).append (by decide)
  | identifier name =>
    have hname : IsName name := h
    rw [text, quote_of_plain fun c hc => escape_of_isWordPart (hname.2.1 c hc)]
    exact (OneLine.append (by decide)
      ((OneLine.append (by decide) hname.oneLine).append (by decide))).append (by decide)
  | _ => decide

/-! ## Syntax errors -/

/-- The text that an error shows is one line. -/
def SyntaxError.ShowsLine : SyntaxError → Prop
  | unexpectedToken text _ => OneLine text
  | outOfRange text _ => OneLine text
  | trailing text _ => OneLine text
  | _ => True

theorem SyntaxError.ShowsLine.oneLine_message {x : SyntaxError} (h : x.ShowsLine) :
    OneLine x.message := by
  have hreason : OneLine x.reason := by
    cases x with
    | unexpectedToken text line | outOfRange text line =>
      exact (OneLine.append (by decide) h).append (by decide)
    | trailing text line => exact OneLine.append (by decide) h
    | unexpectedEnd line =>
      have hend : OneLine "Unexpected end of input." := by decide
      exact hend
    | unclosed line =>
      have hclose : OneLine "Expected closing parenthesis ')' but none found." := by decide
      exact hclose
    | tooDeep line =>
      exact (OneLine.append (by decide) (oneLine_toString nestingLimit)).append (by decide)
  exact ((OneLine.append (by decide) (oneLine_toString _)).append (by decide)).append hreason

/-- What is wrong with the tokens of a text is shown by a character or a number. -/
theorem Fails.showsLine {line : Nat} {cs : List Char} {x : SyntaxError} (h : Fails line cs x) :
    x.ShowsLine := by
  induction h with
  | @unknown c rest h =>
    have hc : isSeparator c = false := by
      rw [← Bool.not_eq_true]
      intro hs
      exact h [c] .nothing ⟨rest, rfl⟩ (.blanks (by simp) (by simpa using hs))
    refine .of_forall (p := (!isSeparator ·)) ?_ (by decide)
    simpa using hc
  | @outOfRange taken rest h =>
    refine .of_forall (p := isNumberPart) ?_ (by decide)
    rw [String.toList_ofList]
    cases hm : h.means with
    | outOfRange hn => exact hn.isNumberPart
  | later _ _ _ ih => exact ih

theorem SyntaxError.About.showsLine {ts : List Lexeme} {last : Nat} {x : SyntaxError}
    (h : x.About ts last) (hts : ∀ t ∈ ts, t.token.Written) : x.ShowsLine := by
  cases x with
  | unexpectedToken text line | trailing text line =>
    obtain ⟨t, ht, rfl, -⟩ := h
    exact (hts t ht).oneLine_text
  | outOfRange => exact h.elim
  | _ => trivial

/-- **The message of a syntax error is one line.** -/
theorem oneLine_message_of_readLine {source : String} {line : Nat} {next : NodeId} {x : SyntaxError}
    (h : (readLine source line next).outcome = .error x) : OneLine x.message := by
  apply SyntaxError.ShowsLine.oneLine_message
  unfold readLine at h
  split at h
  · rename_i x' hx
    cases h
    exact (tokenizeChars_eq_error_iff.mp hx).showsLine
  · rename_i ts hts
    exact (about_of_readLexemes h).showsLine (written_of_tokenize hts)

/-! ## Errors of lines -/

/-- The errors that a line can raise: those of reading, and two of those of evaluation. -/
def Error.OfLine : Error → Prop
  | parsing x => OneLine x.message
  | evaluation (.undefined name _) => IsName name
  | evaluation (.divisionByZero _) => True
  | _ => False

namespace Error.OfLine

variable {x y : Error}

theorem oneLine_message (h : x.OfLine) : OneLine x.message := by
  match x, h with
  | parsing x, h => exact OneLine.append (by decide) h
  | evaluation (.undefined name _), h =>
    exact (OneLine.append (by decide) (IsName.oneLine h)).append (by decide)
  | evaluation (.divisionByZero _), _ =>
    have hzero : OneLine "Division by zero." := by decide
    exact hzero

/-- The messages of errors that differ in the numbers of nodes only are the same. -/
theorem message_eq (h : x.OfLine) (hxy : x.unnumbered = y.unnumbered) : x.message = y.message := by
  match x, h with
  | parsing x, _ =>
    obtain rfl : parsing x = y := by
      cases y with
      | parsing y => exact hxy
      | evaluation | store => cases hxy
    rfl
  | evaluation (.undefined name i), _ =>
    match y with
    | evaluation (.undefined name' j) =>
      obtain rfl : name = name' := by
        simpa [Error.unnumbered, EvalError.unnumbered] using hxy
      rfl
  | evaluation (.divisionByZero i), _ =>
    match y with
    | evaluation (.divisionByZero j) => rfl

end Error.OfLine

end LineCalc
