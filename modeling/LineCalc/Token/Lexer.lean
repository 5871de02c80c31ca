import LineCalc.Error
import LineCalc.Text.Lines
import LineCalc.Token.Basic
import LineCalc.Token.Numeral

/-!
# The tokens of a text

A text is cut into pieces from the front. Each piece is the longest one that some rule for tokens
matches there, and the pieces that carry meaning become lexemes of the text's line. This is the
module `lexer` of the specification (10.5).

* `Piece` says which rule matched, and what.
* `Piece.read?` takes the piece at the front of a text; there is none at the end of the text or at a
  character that starts no token.
* `Piece.chars_of_read?` and `Piece.chars_ne_nil_of_read?`: nothing of the text is lost, and
  something is always taken.
* `Piece.token?` is the token that a piece stands for: none for blanks and comments, and an error
  for a numeral beyond the greatest finite number. That is `parse_number` of `abacus`.
* `tokenize` lists the lexemes of a text. It stops at the first character that starts no piece and
  at the first numeral out of range.
-/

namespace LineCalc

/-! ## Pieces -/

/-- A piece of text that one rule for tokens matches. -/
inductive Piece where
  /-- A run of separators. -/
  | blanks (chars : List Char)
  /-- A comment, from two slashes to the end of its line. -/
  | comment (chars : List Char)
  /-- A number literal. -/
  | numeral (numeral : Numeral)
  /-- A run of letters, digits and underscores that starts with no digit. -/
  | word (chars : List Char)
  /-- A character that is a token by itself. -/
  | sign (char : Char) (token : Token)
  deriving DecidableEq

/-- Whether a character can start a word. -/
def isWordStart (c : Char) : Bool := c.isAlpha || c == '_'

/-- Whether a character can stand inside a word. -/
def isWordPart (c : Char) : Bool := c.isAlphanum || c == '_'

/-- Whether a character ends the line of a comment. -/
def endsComment (c : Char) : Bool := c == '\n' || c == '\r'

/-- The token that a character is by itself. -/
def signToken? : Char → Option Token
  | '+' => some .plus
  | '-' => some .minus
  | '*' => some .star
  | '/' => some .slash
  | '%' => some .percent
  | '(' => some .opening
  | ')' => some .closing
  | '=' => some .equals
  | _ => none

namespace Piece

/-- The text of a piece. -/
def chars : Piece → List Char
  | blanks cs => cs
  | comment cs => cs
  | numeral n => n.chars
  | word cs => cs
  | sign c _ => [c]

/-- Whether a text starts with a comment. -/
def startsComment : List Char → Bool
  | '/' :: '/' :: _ => true
  | _ => false

/-- The sign at the front of a text, and the rest. -/
def readSign? : List Char → Option (Piece × List Char)
  | [] => none
  | c :: cs => (signToken? c).map fun token => (sign c token, cs)

/-- The longest piece at the front of a text, and the rest. -/
def read? (cs : List Char) : Option (Piece × List Char) :=
  if startsComment cs then
    some (comment (cs.takeWhile (!endsComment ·)), cs.dropWhile (!endsComment ·))
  else if cs.head?.any isSeparator then
    some (blanks (cs.takeWhile isSeparator), cs.dropWhile isSeparator)
  else if cs.head?.any isWordStart then
    some (word (cs.takeWhile isWordPart), cs.dropWhile isWordPart)
  else match Numeral.read? cs with
    | some (n, rest) => some (numeral n, rest)
    | none => readSign? cs

/-- Nothing of a text is lost when a piece is read from it. -/
theorem chars_of_read? {cs rest : List Char} {p : Piece} (h : read? cs = some (p, rest)) :
    p.chars ++ rest = cs := by
  unfold read? at h
  split at h
  · cases h
    exact List.takeWhile_append_dropWhile
  split at h
  · cases h
    exact List.takeWhile_append_dropWhile
  split at h
  · cases h
    exact List.takeWhile_append_dropWhile
  split at h
  · rename_i hn
    cases h
    exact Numeral.chars_of_read? hn
  · unfold readSign? at h
    split at h
    · cases h
    · simp only [Option.map_eq_some_iff, Prod.mk.injEq] at h
      obtain ⟨t, -, rfl, rfl⟩ := h
      rfl

theorem takeWhile_ne_nil_of_head? {p q : Char → Bool} {cs : List Char}
    (hpq : ∀ c, p c = true → q c = true) (h : cs.head?.any p = true) : cs.takeWhile q ≠ [] := by
  cases cs with
  | nil => simp at h
  | cons c cs =>
    simp only [List.head?_cons, Option.any_some] at h
    simp [hpq c h]

theorem isWordPart_of_isWordStart {c : Char} (h : isWordStart c = true) : isWordPart c = true := by
  simp only [isWordStart, isWordPart, Char.isAlphanum, Bool.or_eq_true] at *
  rcases h with h | h
  · exact Or.inl (Or.inl h)
  · exact Or.inr h

/-- A piece that is read is not empty. -/
theorem chars_ne_nil_of_read? {cs rest : List Char} {p : Piece} (h : read? cs = some (p, rest)) :
    p.chars ≠ [] := by
  unfold read? at h
  split at h
  · rename_i hc
    cases h
    unfold startsComment at hc
    split at hc
    · simp [chars, endsComment]
    · cases hc
  split at h
  · rename_i hs
    cases h
    exact takeWhile_ne_nil_of_head? (fun _ hc => hc) hs
  split at h
  · rename_i hw
    cases h
    exact takeWhile_ne_nil_of_head? (fun _ hc => isWordPart_of_isWordStart hc) hw
  split at h
  · rename_i hn
    cases h
    exact Numeral.chars_ne_nil_of_read? hn
  · unfold readSign? at h
    split at h
    · cases h
    · simp only [Option.map_eq_some_iff, Prod.mk.injEq] at h
      obtain ⟨t, -, rfl, rfl⟩ := h
      simp [chars]

/-- What remains behind a piece is shorter than the text. -/
theorem length_lt_of_read? {cs rest : List Char} {p : Piece} (h : read? cs = some (p, rest)) :
    rest.length < cs.length := by
  have hc := chars_of_read? h
  have hn := List.length_pos_iff.2 (chars_ne_nil_of_read? h)
  rw [← hc, List.length_append]
  omega

end Piece

/-! ## Lexemes -/

/-- The token of a word: `print` is a token of its own, every other word is a name. -/
def wordToken (cs : List Char) : Token :=
  if cs = ['p', 'r', 'i', 'n', 't'] then .print else .identifier (String.ofList cs)

/-- The token of a numeral, or an error if its value is out of range. -/
def numeralToken (n : Numeral) (line : Nat) : Except SyntaxError Token :=
  match n.decimal.nearest with
  | some m => .ok (.number (.finite false m))
  | none => .error (.outOfRange (String.ofList n.chars) line)

/-- The token that a piece stands for, if it stands for one. -/
def Piece.token? (p : Piece) (line : Nat) : Except SyntaxError (Option Token) :=
  match p with
  | blanks _ => .ok none
  | comment _ => .ok none
  | numeral n => (numeralToken n line).map some
  | word cs => .ok (some (wordToken cs))
  | sign _ token => .ok (some token)

/-- The lexemes of the given characters, all on one line. -/
def tokenizeChars (line : Nat) : List Char → Except SyntaxError (List Lexeme)
  | [] => .ok []
  | c :: cs =>
    match h : Piece.read? (c :: cs) with
    | none => .error (.unexpectedToken (String.ofList [c]) line)
    | some (piece, rest) => do
      let token? ← piece.token? line
      let lexemes ← tokenizeChars line rest
      return token?.toList.map (⟨·, line⟩) ++ lexemes
termination_by cs => cs.length
decreasing_by exact Piece.length_lt_of_read? h

/-- The lexemes of a text on the given line. -/
def tokenize (source : String) (line : Nat) : Except SyntaxError (List Lexeme) :=
  tokenizeChars line source.toList

end LineCalc
