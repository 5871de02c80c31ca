import LineCalc.Decimal

/-!
# Numerals

A number literal has digits before a point, a point with digits after it, or both, and may end in an
exponent. A point always has a digit behind it, and so has an exponent mark: `1.` is the numeral `1`
and a point, `1e+` is the numeral `1` and something else. This is the rule for numbers of the module
`lexer` of the specification (10.5); `parse_number` of `abacus` reads their texts.

* `Numeral` holds the parts, `Numeral.chars` is its text and `Numeral.decimal` its exact value.
* `Numeral.read?` takes the longest numeral from the front of a text.
* `Numeral.chars_of_read?`: what is read is exactly what is taken.
-/

namespace LineCalc

/-- The exponent of a numeral: the mark, a sign if there is one, and digits. -/
structure Exponent where
  mark : Char
  sign : Option Char
  digits : List Char
  deriving DecidableEq

namespace Exponent

/-- The text of an exponent. -/
def chars (e : Exponent) : List Char := e.mark :: e.sign.toList ++ e.digits

/-- The value of an exponent. -/
def value (e : Exponent) : Int :=
  if e.sign = some '-' then -(Nat.ofDigitChars 10 e.digits 0 : Int)
  else Nat.ofDigitChars 10 e.digits 0

/-- The sign at the front of a text, if there is one, and the rest. -/
def readSign : List Char → Option Char × List Char
  | '+' :: cs => (some '+', cs)
  | '-' :: cs => (some '-', cs)
  | cs => (none, cs)

theorem chars_of_readSign (cs : List Char) :
    (readSign cs).1.toList ++ (readSign cs).2 = cs := by
  unfold readSign
  split <;> simp

/-- The exponent at the front of a text, and the rest. -/
def read? : List Char → Option (Exponent × List Char)
  | [] => none
  | mark :: cs =>
    if mark = 'e' ∨ mark = 'E' then
      let (sign, cs) := readSign cs
      match cs.takeWhile Char.isDigit with
      | [] => none
      | digits => some (⟨mark, sign, digits⟩, cs.dropWhile Char.isDigit)
    else none

theorem chars_of_read? {cs rest : List Char} {e : Exponent} (h : read? cs = some (e, rest)) :
    e.chars ++ rest = cs := by
  unfold read? at h
  split at h
  · cases h
  · rename_i mark cs
    split at h
    · have hs := chars_of_readSign cs
      dsimp only at h
      split at h
      · cases h
      · cases h
        simp only [chars, List.append_assoc, List.cons_append]
        rw [List.takeWhile_append_dropWhile, hs]
    · cases h

end Exponent

/-- A number literal. -/
structure Numeral where
  /-- The digits before the point. -/
  whole : List Char
  /-- The digits after the point, if there is one. -/
  fraction : Option (List Char)
  exponent : Option Exponent
  deriving DecidableEq

namespace Numeral

/-- The text of a fraction with its point. -/
def fractionChars : Option (List Char) → List Char
  | none => []
  | some digits => '.' :: digits

/-- The text of an exponent that may be missing. -/
def exponentChars : Option Exponent → List Char
  | none => []
  | some e => e.chars

/-- The text of a numeral. -/
def chars (n : Numeral) : List Char :=
  n.whole ++ fractionChars n.fraction ++ exponentChars n.exponent

/-- The exact value of a numeral. -/
def decimal (n : Numeral) : Decimal :=
  let fraction := n.fraction.getD []
  ⟨Nat.ofDigitChars 10 (n.whole ++ fraction) 0,
    (n.exponent.map Exponent.value).getD 0 - fraction.length⟩

/-- The fraction at the front of a text, if there is one, and the rest. -/
def readFraction : List Char → Option (List Char) × List Char
  | '.' :: cs =>
    match cs.takeWhile Char.isDigit with
    | [] => (none, '.' :: cs)
    | digits => (some digits, cs.dropWhile Char.isDigit)
  | cs => (none, cs)

/-- The exponent at the front of a text, if there is one, and the rest. -/
def readExponent (cs : List Char) : Option Exponent × List Char :=
  match Exponent.read? cs with
  | some (e, rest) => (some e, rest)
  | none => (none, cs)

/-- The longest numeral at the front of a text, and the rest. -/
def read? (cs : List Char) : Option (Numeral × List Char) :=
  let whole := cs.takeWhile Char.isDigit
  let (fraction, rest) := readFraction (cs.dropWhile Char.isDigit)
  if whole = [] ∧ fraction = none then none
  else
    let (exponent, rest) := readExponent rest
    some (⟨whole, fraction, exponent⟩, rest)

theorem chars_of_readFraction (cs : List Char) :
    fractionChars (readFraction cs).1 ++ (readFraction cs).2 = cs := by
  unfold readFraction
  split
  · split
    · rfl
    · simp [fractionChars, List.takeWhile_append_dropWhile]
  · rfl

theorem chars_of_readExponent (cs : List Char) :
    exponentChars (readExponent cs).1 ++ (readExponent cs).2 = cs := by
  unfold readExponent
  split
  · rename_i h
    exact Exponent.chars_of_read? h
  · rfl

/-- A numeral that is read is the front of the text, and nothing of the text is lost. -/
theorem chars_of_read? {cs rest : List Char} {n : Numeral} (h : read? cs = some (n, rest)) :
    n.chars ++ rest = cs := by
  unfold read? at h
  dsimp only at h
  split at h
  · cases h
  · cases h
    simp only [chars, List.append_assoc]
    rw [chars_of_readExponent, chars_of_readFraction, List.takeWhile_append_dropWhile]

/-- A numeral that is read is not empty. -/
theorem chars_ne_nil_of_read? {cs rest : List Char} {n : Numeral} (h : read? cs = some (n, rest)) :
    n.chars ≠ [] := by
  unfold read? at h
  dsimp only at h
  split at h
  · cases h
  · rename_i hp
    cases h
    intro hc
    simp only [chars, List.append_eq_nil_iff] at hc
    refine hp ⟨hc.1.1, ?_⟩
    have hf := hc.1.2
    revert hf
    cases (readFraction (cs.dropWhile Char.isDigit)).1 <;> simp [fractionChars]

end Numeral

end LineCalc
