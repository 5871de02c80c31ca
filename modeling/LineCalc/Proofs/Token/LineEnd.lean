import Mathlib.Control.Monad.Basic
import LineCalc.Proofs.Text.Lines
import LineCalc.Proofs.Token.LongestMatch

/-!
# Tokens in front of a line end

No token and no comment goes on behind a line feed or a carriage return. A text with one of them in
it has the tokens of the text before it and then those of the text behind it.

* `isNumberPart` are the characters of number literals.
* `Means.endsComment_eq_false`: of the texts that a rule matches, only runs of blanks have line ends
  in them.
* `LongestMatch.append_lineEnd`: the longest match in a text that starts with no blank is the same
  if a line end follows the text.
* `tokenizeChars_append_lineEnd` is the law for every two texts, errors included, and
  `tokenize_append_lineBreak` the same for the three line breaks.
* `tokenize_chomp`: a line has the same tokens with its line end and without it.
-/

namespace LineCalc

variable {line : Nat}

/-! ## Characters of matched texts -/

/-- Whether a character can stand in a number literal. -/
def isNumberPart (c : Char) : Bool :=
  c.isDigit || c == '.' || c == 'e' || c == 'E' || c == '+' || c == '-'

theorem IsDigits.isNumberPart {cs : List Char} (h : IsDigits cs) :
    ∀ c ∈ cs, isNumberPart c = true := by
  intro c hc
  simp [LineCalc.isNumberPart, h.2 c hc]

theorem IsPower.isNumberPart {cs : List Char} {power : Int} (h : IsPower cs power) :
    ∀ c ∈ cs, isNumberPart c = true := by
  have hmark : ∀ {mark : Char}, mark = 'e' ∨ mark = 'E' → LineCalc.isNumberPart mark = true := by
    rintro mark (rfl | rfl) <;> decide
  cases h with
  | unsigned hm hd => exact List.forall_mem_cons.mpr ⟨hmark hm, hd.isNumberPart⟩
  | plus hm hd | minus hm hd =>
    exact List.forall_mem_cons.mpr
      ⟨hmark hm, List.forall_mem_cons.mpr ⟨by decide, hd.isNumberPart⟩⟩

theorem isNumberPart_of_isPowerOrNothing {cs : List Char} {power : Int}
    (h : IsPowerOrNothing cs power) : ∀ c ∈ cs, isNumberPart c = true := by
  rcases h with ⟨rfl, -⟩ | h
  · exact fun _ hc => nomatch hc
  · exact h.isNumberPart

theorem IsNumber.isNumberPart {cs : List Char} {d : Decimal} (h : IsNumber cs d) :
    ∀ c ∈ cs, isNumberPart c = true := by
  have hpoint : LineCalc.isNumberPart '.' = true := by decide
  cases h with
  | pointed hw hf hp =>
    simp only [List.forall_mem_append, List.forall_mem_cons]
    exact ⟨⟨hw.isNumberPart, hpoint, hf.isNumberPart⟩, isNumberPart_of_isPowerOrNothing hp⟩
  | fractional hf hp =>
    simp only [List.forall_mem_append, List.forall_mem_cons]
    exact ⟨⟨hpoint, hf.isNumberPart⟩, isNumberPart_of_isPowerOrNothing hp⟩
  | scaled hw hp => exact List.forall_mem_append.mpr ⟨hw.isNumberPart, hp.isNumberPart⟩
  | whole hw => exact hw.isNumberPart

theorem endsComment_iff {c : Char} : endsComment c = true ↔ c = '\n' ∨ c = '\r' := by
  simp [endsComment]

theorem isSeparator_of_endsComment {c : Char} (h : endsComment c = true) :
    isSeparator c = true := by
  rcases endsComment_iff.mp h with rfl | rfl <;> decide

/-- A character of a class without the line ends is none. -/
theorem endsComment_eq_false_of {p : Char → Bool} {c : Char} (h : p c = true)
    (hp : p '\n' = false ∧ p '\r' = false) : endsComment c = false := by
  rw [← Bool.not_eq_true]
  intro hc
  rcases endsComment_iff.mp hc with rfl | rfl
  · rw [hp.1] at h
    cases h
  · rw [hp.2] at h
    cases h

theorem endsComment_eq_false_of_isNumberPart {c : Char} (h : isNumberPart c = true) :
    endsComment c = false := endsComment_eq_false_of h (by decide)

theorem endsComment_eq_false_of_isWordPart {c : Char} (h : isWordPart c = true) :
    endsComment c = false := endsComment_eq_false_of h (by decide)

theorem IsName.oneLine {name : String} (h : IsName name) : OneLine name :=
  .of_forall h.2.1 (by decide)

theorem endsComment_eq_false_of_signToken? {c : Char} {t : Token} (h : signToken? c = some t) :
    endsComment c = false :=
  endsComment_eq_false_of (p := fun c => (signToken? c).isSome) (by rw [h]; rfl) (by decide)

/-- A text that a rule matches has no line end in it, unless it begins with a blank. -/
theorem Means.endsComment_eq_false {cs : List Char} {m : Meaning} (h : Means cs m)
    (hs : ∀ c, cs.head? = some c → isSeparator c = false) : ∀ c ∈ cs, endsComment c = false := by
  cases h with
  | number hn | outOfRange hn =>
    exact fun c hc => endsComment_eq_false_of_isNumberPart (hn.isNumberPart c hc)
  | print =>
    exact fun c hc => endsComment_eq_false_of_isWordPart (List.all_eq_true.mp (by decide) c hc)
  | name hc hcs =>
    refine List.forall_mem_cons.mpr ⟨?_, fun d hd => ?_⟩
    · exact endsComment_eq_false_of_isWordPart (Piece.isWordPart_of_isWordStart hc)
    · exact endsComment_eq_false_of_isWordPart (hcs d hd)
  | comment h => exact List.forall_mem_cons.mpr ⟨rfl, List.forall_mem_cons.mpr ⟨rfl, h⟩⟩
  | sign h => exact List.forall_mem_singleton.mpr (endsComment_eq_false_of_signToken? h)
  | @blanks cs hne h =>
    cases cs with
    | nil => exact absurd rfl hne
    | cons c cs =>
      have hc := hs c rfl
      rw [h c List.mem_cons_self] at hc
      cases hc

/-! ## The longest match in front of a line end -/

section

variable {c d : Char} {cs rest : List Char} (hc : endsComment c = true)
  (hd : isSeparator d = false)

include hc hd

/-- What a rule matches in front of a line end and behind it is in front of it. -/
theorem Means.prefix_of_append_lineEnd {taken : List Char} {m : Meaning} (hm : Means taken m)
    (h : taken <+: d :: cs ++ c :: rest) : taken <+: d :: cs := by
  by_cases hle : taken.length ≤ (d :: cs).length
  · exact List.prefix_of_prefix_length_le h (List.prefix_append _ _) hle
  · have hlonger : d :: cs ++ [c] <+: taken := by
      refine List.prefix_of_prefix_length_le ⟨rest, by simp⟩ h ?_
      rw [List.length_append, List.length_singleton]
      omega
    have hhead : ∀ x, taken.head? = some x → isSeparator x = false := by
      obtain ⟨more, rfl⟩ := hlonger
      intro x hx
      obtain rfl : d = x := by simpa using hx
      exact hd
    have hno := hm.endsComment_eq_false hhead c (hlonger.subset (by simp))
    rw [hc] at hno
    cases hno

/-- A line end behind a text does not change its longest match. -/
theorem LongestMatch.append_lineEnd {taken : List Char} {m : Meaning}
    (h : LongestMatch (d :: cs) taken m) : LongestMatch (d :: cs ++ c :: rest) taken m where
  front := h.front.trans (List.prefix_append _ _)
  means := h.means
  longest other k hfront hk := h.longest other k (hk.prefix_of_append_lineEnd hc hd hfront) hk

theorem read?_append_lineEnd_eq_none (h : Piece.read? (d :: cs) = none) :
    Piece.read? (d :: cs ++ c :: rest) = none := by
  rw [Piece.read?_eq_none_iff] at h ⊢
  intro taken m hfront hm
  exact h taken m (hm.prefix_of_append_lineEnd hc hd hfront) hm

end

/-! ## The tokens of two texts -/

/-- The lexemes of one text and then those of another; the first error if there is one. -/
def joinLexemes (first second : Except SyntaxError (List Lexeme)) :
    Except SyntaxError (List Lexeme) := do
  let ts ← first
  let us ← second
  return ts ++ us

theorem joinLexemes_error (e : SyntaxError) (second : Except SyntaxError (List Lexeme)) :
    joinLexemes (.error e) second = .error e := rfl

theorem joinLexemes_nil (second : Except SyntaxError (List Lexeme)) :
    joinLexemes (.ok []) second = second := by
  cases second <;> rfl

theorem joinLexemes_ok_nil (first : Except SyntaxError (List Lexeme)) :
    joinLexemes first (.ok []) = first := by
  cases first with
  | error e => rfl
  | ok ts => simp [joinLexemes, bind, Except.bind, pure, Except.pure]

theorem joinLexemes_map (ts : List Lexeme) (first second : Except SyntaxError (List Lexeme)) :
    joinLexemes (first.map (ts ++ ·)) second = (joinLexemes first second).map (ts ++ ·) := by
  cases first with
  | error e => rfl
  | ok us =>
    cases second with
    | error e => rfl
    | ok vs => simp [joinLexemes, Except.map, bind, Except.bind, pure, Except.pure]

/-- What a longest match contributes in front of two texts, when the one in front of the line end
has been dealt with. -/
theorem Spells.join {taken cs rest : List Char} {ts : List Token}
    {second : Except SyntaxError (List Lexeme)} (h : Spells line taken ts cs)
    (h' : Spells line taken ts rest)
    (hr : tokenizeChars line rest = joinLexemes (tokenizeChars line cs) second) :
    tokenizeChars line (taken ++ rest) = joinLexemes (tokenizeChars line (taken ++ cs)) second := by
  have hcs : tokenizeChars line (taken ++ cs) = _ := h
  have hrest : tokenizeChars line (taken ++ rest) = _ := h'
  rw [hcs, hrest, hr, joinLexemes_map]

/-- **The tokens of a text with a line end in it** are those of the text before the line end and
then those of the text behind it. An error in front of the line end is the same error. -/
theorem tokenizeChars_append_lineEnd {c : Char} (hc : endsComment c = true)
    (cs rest : List Char) :
    tokenizeChars line (cs ++ c :: rest) =
      joinLexemes (tokenizeChars line cs) (tokenizeChars line rest) := by
  match cs with
  | [] =>
    have hnil : tokenizeChars line [] = .ok [] := by rw [tokenizeChars]
    rw [hnil, joinLexemes_nil]
    exact tokenizeChars_cons_separator (isSeparator_of_endsComment hc) rest
  | d :: cs =>
    by_cases hd : isSeparator d = true
    · -- A run of blanks may go on behind the line end, so it is taken character by character.
      rw [List.cons_append, tokenizeChars_cons_separator hd, tokenizeChars_cons_separator hd]
      exact tokenizeChars_append_lineEnd hc cs rest
    · have hd' : isSeparator d = false := Bool.eq_false_iff.mpr hd
      cases hr : Piece.read? (d :: cs) with
      | none =>
        rw [tokenizeChars_of_read?_eq_none hr, joinLexemes_error]
        exact tokenizeChars_of_read?_eq_none (read?_append_lineEnd_eq_none hc hd' hr)
      | some taken =>
        obtain ⟨piece, more⟩ := taken
        have hl := Piece.longestMatch_of_read? hr
        have hl' : LongestMatch (d :: cs ++ c :: rest) _ _ := hl.append_lineEnd hc hd'
        have ih := tokenizeChars_append_lineEnd hc more rest
        have hsplit := Piece.chars_of_read? hr
        rw [← hsplit] at hl hl' ⊢
        rw [List.append_assoc] at hl' ⊢
        cases hm : piece.meaning with
        | outOfRange =>
          rw [hm] at hl hl'
          rw [tokenizeChars_of_fails (.outOfRange hl), tokenizeChars_of_fails (.outOfRange hl')]
          rfl
        | nothing =>
          rw [hm] at hl hl'
          exact hl.spells_nothing.join hl'.spells_nothing ih
        | token t =>
          rw [hm] at hl hl'
          exact hl.spells_token.join hl'.spells_token ih
termination_by cs.length
decreasing_by
  · exact Nat.lt_succ_self _
  · exact Piece.length_lt_of_read? hr

/-- A line break of one or two characters comes to a line end of one character. -/
theorem tokenizeChars_append_lineBreak {ending : List Char}
    (h : ending = ['\n'] ∨ ending = ['\r'] ∨ ending = ['\r', '\n']) (cs rest : List Char) :
    tokenizeChars line (cs ++ ending ++ rest) =
      joinLexemes (tokenizeChars line cs) (tokenizeChars line rest) := by
  rw [List.append_assoc]
  rcases h with rfl | rfl | rfl
  · exact tokenizeChars_append_lineEnd (by decide) cs rest
  · exact tokenizeChars_append_lineEnd (by decide) cs rest
  · -- The line feed is a blank in front of the second text.
    have hfeed : tokenizeChars line ('\n' :: rest) = tokenizeChars line rest :=
      tokenizeChars_cons_separator (by decide) rest
    rw [← hfeed]
    exact tokenizeChars_append_lineEnd (by decide) cs ('\n' :: rest)

/-- **Texts on both sides of a line break are cut into tokens apart.** The tokens of the text before
the line break come first, and an error in it is the error of the whole, whatever follows. -/
theorem tokenize_append_lineBreak {ending : String} (h : ending ∈ ["\n", "\r", "\r\n"])
    (a b : String) (line : Nat) :
    tokenize (a ++ ending ++ b) line =
      match tokenize a line, tokenize b line with
      | .ok ts, .ok us => .ok (ts ++ us)
      | .ok _, .error x => .error x
      | .error x, _ => .error x := by
  have hending : ending.toList = ['\n'] ∨ ending.toList = ['\r'] ∨
      ending.toList = ['\r', '\n'] := by
    simp only [List.mem_cons, List.not_mem_nil, or_false] at h
    rcases h with rfl | rfl | rfl <;> decide
  unfold tokenize
  rw [String.toList_append, String.toList_append, tokenizeChars_append_lineBreak hending]
  cases tokenizeChars line a.toList with
  | error x => rfl
  | ok ts =>
    cases tokenizeChars line b.toList with
    | error x => rfl
    | ok us => rfl

/-- A comment that is open at the line break, between parts of a word, and a zero and a letter that
would be one number together with the digit behind them. -/
theorem tokenize_append_lineBreak_of_comment :
    "\r\n" ∈ ["\n", "\r", "\r\n"] ∧
    tokenize ("pri // 0e" ++ "\r\n" ++ "nt") 3 =
      .ok [⟨.identifier "pri", 3⟩, ⟨.identifier "nt", 3⟩] ∧
    tokenize ("0e" ++ "\r\n" ++ "9 $") 3 = .error (.unexpectedToken "$" 3) := by
  have hmem : "\r\n" ∈ ["\n", "\r", "\r\n"] := by decide
  have hopen : tokenize "pri // 0e" 3 = .ok [⟨.identifier "pri", 3⟩] := by decide +kernel
  have hword : tokenize "nt" 3 = .ok [⟨.identifier "nt", 3⟩] := by decide +kernel
  have hzero : tokenize "0e" 3 = .ok [⟨.number (.zero false), 3⟩, ⟨.identifier "e", 3⟩] := by
    decide +kernel
  have hfails : tokenize "9 $" 3 = .error (.unexpectedToken "$" 3) := by decide +kernel
  refine ⟨hmem, ?_, ?_⟩
  · rw [tokenize_append_lineBreak hmem, hopen, hword]
    rfl
  · rw [tokenize_append_lineBreak hmem, hzero, hfails]

/-- The line end behind a line adds nothing to its tokens. -/
theorem tokenizeChars_append_ending {ending : List Char} (h : IsLineEnd ending) (cs : List Char) :
    tokenizeChars line (cs ++ ending) = tokenizeChars line cs := by
  have hnil : tokenizeChars line [] = .ok [] := by rw [tokenizeChars]
  rcases h with rfl | rfl | rfl
  · rw [List.append_nil]
  · rw [tokenizeChars_append_lineEnd (by decide), hnil, joinLexemes_ok_nil]
  · have hreturn : tokenizeChars line ['\n'] = .ok [] := by
      rw [tokenizeChars_cons_separator (by decide), hnil]
    rw [tokenizeChars_append_lineEnd (by decide), hreturn, joinLexemes_ok_nil]

theorem tokenize_chomp (l : String) (line : Nat) :
    tokenize (chompLine l) line = tokenize l line := by
  obtain ⟨ending, hl, he⟩ := exists_lineEnd l.toList
  unfold tokenize chompLine
  rw [String.toList_ofList]
  generalize chomp l.toList = cs at hl
  rw [hl, tokenizeChars_append_ending he]

end LineCalc
