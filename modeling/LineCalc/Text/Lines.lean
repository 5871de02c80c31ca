/-!
# Blanks and lines

Two different sets of characters separate things inside a line: the few that separate tokens of a
statement, and all characters with the Unicode property `White_Space`, which separate the words of a
command. An input is cut into lines behind each line feed. That rule is the same for characters and
for bytes, since the byte of a line feed is no part of any other character's bytes.

* `isSeparator` is the first set, `isSpace` the second.
* `trim` removes the spaces at both ends of a text, and `cutWord` splits a text at its first space.
* `piecesAfter` cuts a list behind each element that ends a piece. The pieces keep their ends, and
  together they are the list: `flatten_piecesAfter`.
* `lines` are the pieces of a text without their line ends, for `get_result` of `abacus`.
  `byteLines` are those of a byte sequence with their line ends, for `run`.
* `decodeLine` is the text of a piece of bytes, if it is well-formed UTF-8.
-/

namespace LineCalc

/-! ## Blank characters -/

/-- Whether a character only separates tokens: space, tab, form feed, carriage return, line feed. -/
def isSeparator (c : Char) : Bool :=
  c == ' ' || c == '\t' || c == '\x0c' || c == '\r' || c == '\n'

/-- Whether a character has the Unicode property `White_Space`. -/
def isSpace (c : Char) : Bool :=
  let n := c.toNat
  (0x9 ≤ n && n ≤ 0xd) || n == 0x20 || n == 0x85 || n == 0xa0 || n == 0x1680 ||
    (0x2000 ≤ n && n ≤ 0x200a) || n == 0x2028 || n == 0x2029 || n == 0x202f || n == 0x205f ||
    n == 0x3000

/-- The text without the spaces at its end. -/
def trimEnd (cs : List Char) : List Char := (cs.reverse.dropWhile isSpace).reverse

/-- The text without the spaces at its two ends. -/
def trim (cs : List Char) : List Char := trimEnd (cs.dropWhile isSpace)

/-- The text before the first space, and the text behind that space; nothing is behind a text
without spaces. -/
def cutWord (cs : List Char) : List Char × List Char :=
  (cs.takeWhile (!isSpace ·), (cs.dropWhile (!isSpace ·)).drop 1)

theorem isSpace_of_isSeparator {c : Char} (h : isSeparator c = true) : isSpace c = true := by
  simp only [isSeparator, Bool.or_eq_true, beq_iff_eq] at h
  rcases h with (((rfl | rfl) | rfl) | rfl) | rfl <;> rfl

/-- Every character that core counts as white space is a space here. -/
theorem isSpace_of_isWhitespace {c : Char} (h : c.isWhitespace = true) : isSpace c = true := by
  simp only [Char.isWhitespace, Bool.or_eq_true, decide_eq_true_eq] at h
  rcases h with ((rfl | rfl) | rfl) | rfl <;> rfl

/-! ## Lines -/

/-- The pieces of a list, each up to and with the next element that ends one. -/
def piecesAfter {α : Type} (isEnd : α → Bool) : List α → List (List α)
  | [] => []
  | x :: xs =>
    if isEnd x then [x] :: piecesAfter isEnd xs
    else match piecesAfter isEnd xs with
      | [] => [[x]]
      | piece :: pieces => (x :: piece) :: pieces

theorem flatten_piecesAfter {α : Type} (isEnd : α → Bool) (xs : List α) :
    (piecesAfter isEnd xs).flatten = xs := by
  induction xs with
  | nil => rfl
  | cons x xs ih =>
    unfold piecesAfter
    split
    · simp [ih]
    · split <;> rename_i h <;> simp_all

theorem ne_nil_of_mem_piecesAfter {α : Type} (isEnd : α → Bool) (xs : List α) :
    ∀ p ∈ piecesAfter isEnd xs, p ≠ [] := by
  induction xs with
  | nil => simp [piecesAfter]
  | cons x xs ih =>
    unfold piecesAfter
    split
    · simpa using ih
    · split
      · simp
      · rename_i h
        rw [h] at ih
        simp only [List.mem_cons, forall_eq_or_imp] at ih ⊢
        exact ⟨by simp, ih.2⟩

/-- A piece without its line end, which is a line feed with or without a carriage return before it.
-/
def chomp (piece : List Char) : List Char :=
  match piece.reverse with
  | '\n' :: '\r' :: rest => rest.reverse
  | '\n' :: rest => rest.reverse
  | _ => piece

/-- The lines of a text, without their line ends. -/
def lines (text : String) : List String :=
  (piecesAfter (· == '\n') text.toList).map fun piece => String.ofList (chomp piece)

/-- The lines of a byte sequence, with their line ends. -/
def byteLines (bytes : ByteArray) : List (List UInt8) :=
  piecesAfter (· == 10) bytes.data.toList

/-- The text that a line of bytes encodes; nothing if it is not well-formed UTF-8. -/
def decodeLine (line : List UInt8) : Option String := String.fromUTF8? ⟨line.toArray⟩

end LineCalc
