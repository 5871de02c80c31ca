import LineCalc.Proofs.Token.Numeral

/-!
# Texts and their tokens

What one piece of text contributes to the tokens of the text, and what tokens of texts can carry.

* `IsName` are the words that are names.
* `Spells` says that a text contributes the given tokens to whatever is read behind it, and
  `Spells.append` puts two such texts together. `spells_of_read?` is one step of the reading.
* `spells_space`, `spells_sign`, `spells_name`, `spells_print` and `spells_number` are the pieces
  that statements are written with. Names and the word `print` have to end where they do, and
  numbers need a boundary behind them, because the longest piece is taken.
* `Token.Written`: a number in a text has no sign, and an identifier is a name.
  `written_of_tokenize`: all tokens of a text are like that.
-/

namespace LineCalc

variable {line : Nat} {rest : List Char}

/-! ## Names -/

/-- A word of letters, digits and underscores that starts with no digit and is not `print`. -/
def IsName (name : String) : Prop :=
  name.toList.head?.any isWordStart = true ∧ (∀ c ∈ name.toList, isWordPart c = true) ∧
    name ≠ "print"

instance (name : String) : Decidable (IsName name) :=
  decidable_of_iff (name.toList.head?.any isWordStart = true ∧ name.toList.all isWordPart = true ∧
    name ≠ "print") (by rw [IsName, List.all_eq_true])

theorem wordToken_of_isName {name : String} (h : IsName name) :
    wordToken name.toList = .identifier name := by
  have hne : ¬ name.toList = ['p', 'r', 'i', 'n', 't'] := by
    intro hp
    apply h.2.2
    rw [← String.ofList_toList (s := name), hp]
  unfold wordToken
  rw [if_neg hne, String.ofList_toList]

/-- A word that starts with no digit is a name or the word `print`. -/
theorem isName_of_wordToken {cs : List Char} {name : String}
    (hs : cs.head?.any isWordStart = true) (hp : ∀ c ∈ cs, isWordPart c = true)
    (h : wordToken cs = .identifier name) : IsName name := by
  unfold wordToken at h
  split at h
  · cases h
  · rename_i hne
    obtain rfl := Token.identifier.inj h
    refine ⟨?_, ?_, ?_⟩
    · rwa [String.toList_ofList]
    · rwa [String.toList_ofList]
    · intro heq
      apply hne
      rw [← String.toList_ofList (l := cs), heq]
      rfl

/-! ## Texts that spell tokens -/

/-- In front of `rest`, the text contributes the given tokens. -/
def Spells (line : Nat) (cs : List Char) (ts : List Token) (rest : List Char) : Prop :=
  tokenizeChars line (cs ++ rest) = (tokenizeChars line rest).map (ts.map (⟨·, line⟩) ++ ·)

theorem Spells.append {cs ds : List Char} {ts us : List Token} (h : Spells line cs ts (ds ++ rest))
    (h' : Spells line ds us rest) : Spells line (cs ++ ds) (ts ++ us) rest := by
  unfold Spells at *
  rw [List.append_assoc, h, h']
  cases tokenizeChars line rest with
  | error e => rfl
  | ok lexemes => simp only [Except.map, List.map_append, List.append_assoc]

/-- A text without tokens changes nothing in front of another. -/
theorem spells_nil_iff {cs : List Char} :
    Spells line cs [] rest ↔ tokenizeChars line (cs ++ rest) = tokenizeChars line rest := by
  unfold Spells
  cases tokenizeChars line rest with
  | error e => exact Iff.rfl
  | ok lexemes => exact Iff.rfl

/-- The tokens of a text that nothing follows. -/
theorem Spells.tokenizeChars_eq {cs : List Char} {ts : List Token} (h : Spells line cs ts []) :
    tokenizeChars line cs = .ok (ts.map (⟨·, line⟩)) := by
  unfold Spells at h
  rw [List.append_nil, tokenizeChars] at h
  rw [h]
  simp only [Except.map, List.append_nil]

/-- A piece contributes the token that it stands for. -/
theorem spells_of_read? {cs : List Char} {piece : Piece} {token? : Option Token}
    (h : Piece.read? (cs ++ rest) = some (piece, rest)) (ht : piece.token? line = .ok token?) :
    Spells line cs token?.toList rest := by
  unfold Spells
  cases hcs : cs ++ rest with
  | nil =>
    rw [hcs] at h
    cases h
  | cons c more =>
    rw [hcs] at h
    rw [tokenizeChars]
    split
    · rename_i hn
      rw [h] at hn
      cases hn
    · rename_i hr
      rw [h] at hr
      cases hr
      rw [ht]
      rfl

/-! ## The pieces of statements -/

/-- A character of a class without the slash starts no comment. -/
theorem startsComment_eq_false {p : Char → Bool} {c : Char} (h : p c = true)
    (hp : p '/' = false) : Piece.startsComment (c :: rest) = false := by
  unfold Piece.startsComment
  split
  · rename_i heq
    obtain ⟨rfl, -⟩ := List.cons.inj heq
    rw [hp] at h
    cases h
  · rfl

/-- A character of a class without the separators is none of them. -/
theorem isSeparator_eq_false {p : Char → Bool} {c : Char} (h : p c = true)
    (hp : [' ', '\t', '\x0c', '\r', '\n'].any p = false) : isSeparator c = false := by
  rw [Bool.eq_false_iff]
  intro hs
  have hmem : c ∈ [' ', '\t', '\x0c', '\r', '\n'] := by
    simpa [isSeparator, or_assoc] using hs
  rw [List.any_eq_false] at hp
  exact hp c hmem h

theorem le_toNat_of_isAlpha {c : Char} (h : c.isAlpha = true) : 'A'.toNat ≤ c.toNat := by
  rcases Bool.or_eq_true_iff.mp h with h | h
  · exact UInt32.le_iff_toNat_le.mp (of_decide_eq_true h).1
  · have hlower := UInt32.le_iff_toNat_le.mp (of_decide_eq_true (Bool.and_eq_true_iff.mp h).1)
    exact Nat.le_trans (by decide) hlower

theorem toNat_le_of_isAlpha {c : Char} (h : c.isAlpha = true) : c.toNat ≤ 'z'.toNat := by
  rcases Bool.or_eq_true_iff.mp h with h | h
  · have hupper := UInt32.le_iff_toNat_le.mp (of_decide_eq_true h).2
    exact Nat.le_trans hupper (by decide)
  · exact UInt32.le_iff_toNat_le.mp (of_decide_eq_true (Bool.and_eq_true_iff.mp h).2)

theorem graphic_of_isDigit {c : Char} (h : c.isDigit = true) :
    '!'.toNat ≤ c.toNat ∧ c.toNat ≤ '~'.toNat := by
  rw [Char.isDigit_iff_toNat] at h
  exact ⟨Nat.le_trans (by decide) h.1, Nat.le_trans h.2 (by decide)⟩

/-- Words are written with graphic characters. -/
theorem graphic_of_isWordPart {c : Char} (h : isWordPart c = true) :
    '!'.toNat ≤ c.toNat ∧ c.toNat ≤ '~'.toNat := by
  simp only [isWordPart, Char.isAlphanum, Bool.or_eq_true, beq_iff_eq] at h
  rcases h with (h | h) | rfl
  · exact ⟨Nat.le_trans (by decide) (le_toNat_of_isAlpha h),
      Nat.le_trans (toNat_le_of_isAlpha h) (by decide)⟩
  · exact graphic_of_isDigit h
  · decide

theorem isWordStart_of_isDigit {c : Char} (h : c.isDigit = true) : isWordStart c = false := by
  rw [Char.isDigit_iff_toNat] at h
  rw [Bool.eq_false_iff]
  intro hw
  rcases Bool.or_eq_true_iff.mp hw with hw | hw
  · have hlt : '9'.toNat < 'A'.toNat := by decide
    have hle := le_toNat_of_isAlpha hw
    omega
  · rw [beq_iff_eq.mp hw] at h
    exact absurd h.2 (by decide)

theorem read?_sign {c : Char} {token : Token} (h : signToken? c = some token)
    (hc : Piece.startsComment (c :: rest) = false) :
    Piece.read? (c :: rest) = some (.sign c token, rest) := by
  have hr : Piece.readSign? (c :: rest) = some (.sign c token, rest) := by
    simp only [Piece.readSign?, h, Option.map_some]
  -- No sign starts a piece of another kind; only a slash could start a comment.
  have hother : isSeparator c = false ∧ isWordStart c = false ∧
      Numeral.read? (c :: rest) = none := by
    unfold signToken? at h
    split at h
    any_goals exact ⟨rfl, rfl, rfl⟩
    cases h
  unfold Piece.read?
  rw [if_neg (by simp [hc]), if_neg (by simp [hother.1]), if_neg (by simp [hother.2.1]),
    hother.2.2, hr]

theorem spells_sign {c : Char} {token : Token} (h : signToken? c = some token)
    (hc : Piece.startsComment (c :: rest) = false) : Spells line [c] [token] rest := by
  have hread : Piece.read? ([c] ++ rest) = some (.sign c token, rest) := read?_sign h hc
  have ht : (Piece.sign c token).token? line = .ok (some token) := rfl
  exact spells_of_read? hread ht

/-- Separators in a row are one piece. -/
theorem tokenizeChars_separator {c : Char} (hc : isSeparator c = true) :
    tokenizeChars line (c :: rest) = tokenizeChars line (rest.dropWhile isSeparator) := by
  have hcomment : Piece.startsComment (c :: rest) = false := startsComment_eq_false hc rfl
  have hread : Piece.read? ((c :: rest).takeWhile isSeparator ++ rest.dropWhile isSeparator) =
      some (.blanks ((c :: rest).takeWhile isSeparator), rest.dropWhile isSeparator) := by
    rw [← List.dropWhile_cons_of_pos hc, List.takeWhile_append_dropWhile]
    unfold Piece.read?
    rw [if_neg (by simp [hcomment]), if_pos (by simpa using hc)]
  have hspells : Spells line ((c :: rest).takeWhile isSeparator) [] (rest.dropWhile isSeparator) :=
    spells_of_read? hread rfl
  rwa [spells_nil_iff, ← List.dropWhile_cons_of_pos hc, List.takeWhile_append_dropWhile,
    List.dropWhile_cons_of_pos hc] at hspells

/-- Separators in front of a text contribute nothing, whatever follows. -/
theorem tokenizeChars_cons_separator {c : Char} (hc : isSeparator c = true) (rest : List Char) :
    tokenizeChars line (c :: rest) = tokenizeChars line rest := by
  rw [tokenizeChars_separator hc]
  cases rest with
  | nil => rfl
  | cons d rest =>
    by_cases hd : isSeparator d = true
    · rw [List.dropWhile_cons_of_pos hd, tokenizeChars_separator hd]
    · rw [List.dropWhile_cons_of_neg hd]

theorem spells_space : Spells line [' '] [] rest :=
  spells_nil_iff.mpr (tokenizeChars_cons_separator rfl rest)

theorem read?_word {cs : List Char} (hs : cs.head?.any isWordStart = true)
    (hp : ∀ c ∈ cs, isWordPart c = true) (hrest : EndsRun isWordPart rest) :
    Piece.read? (cs ++ rest) = some (.word cs, rest) := by
  cases cs with
  | nil => cases hs
  | cons c cs =>
    have hstart : isWordStart c = true := hs
    have hcomment : Piece.startsComment (c :: (cs ++ rest)) = false :=
      startsComment_eq_false hstart rfl
    have hblank := isSeparator_eq_false hstart rfl
    have ht := takeWhile_append_of_endsRun hp hrest
    have hd := dropWhile_append_of_endsRun hp hrest
    rw [List.cons_append] at ht hd ⊢
    unfold Piece.read?
    rw [if_neg (by simp [hcomment]), if_neg (by simp [hblank]), if_pos (by simpa using hstart),
      ht, hd]

theorem spells_name {name : String} (h : IsName name) (hrest : EndsRun isWordPart rest) :
    Spells line name.toList [.identifier name] rest := by
  have ht : (Piece.word name.toList).token? line = .ok (some (.identifier name)) := by
    simp only [Piece.token?, wordToken_of_isName h]
  exact spells_of_read? (read?_word h.1 h.2.1 hrest) ht

theorem spells_print (hrest : EndsRun isWordPart rest) :
    Spells line ['p', 'r', 'i', 'n', 't'] [.print] rest := by
  have ht : (Piece.word ['p', 'r', 'i', 'n', 't']).token? line = .ok (some .print) := rfl
  exact spells_of_read? (read?_word rfl (List.all_eq_true.mp rfl) hrest) ht

theorem Numeral.Plain.exists_chars_eq_cons {n : Numeral} (hn : n.Plain) :
    ∃ c cs, n.chars = c :: cs ∧ c.isDigit = true := by
  obtain ⟨c, cs, hc⟩ := List.exists_cons_of_ne_nil hn.whole_ne_nil
  refine ⟨c, cs ++ fractionChars n.fraction ++ exponentChars n.exponent, ?_, ?_⟩
  · simp only [chars, hc, List.cons_append]
  · exact hn.whole_digits c (hc ▸ List.mem_cons_self)

theorem read?_numeral {n : Numeral} (hn : n.Plain) (hrest : AtBoundary rest) :
    Piece.read? (n.chars ++ rest) = some (.numeral n, rest) := by
  obtain ⟨c, cs, hc, hd⟩ := hn.exists_chars_eq_cons
  have hread := hn.read?_chars hrest
  have hcomment : Piece.startsComment (c :: (cs ++ rest)) = false := startsComment_eq_false hd rfl
  have hblank := isSeparator_eq_false hd rfl
  rw [hc, List.cons_append] at hread ⊢
  unfold Piece.read?
  rw [if_neg (by simp [hcomment]), if_neg (by simp [hblank]),
    if_neg (by simp [isWordStart_of_isDigit hd]), hread]

theorem spells_number (m : Magnitude) (hrest : AtBoundary rest) :
    Spells line (Binary64.finite false m).plainChars [.number (.finite false m)] rest := by
  have hplain : (Binary64.finite false m).plainChars = (Decimal.shortest m).numeral.chars :=
    (Decimal.chars_numeral _).symm
  have ht : (Piece.numeral (Decimal.shortest m).numeral).token? line =
      .ok (some (.number (.finite false m))) := by
    simp only [Piece.token?, numeralToken_shortest, Except.map]
  rw [hplain]
  exact spells_of_read? (read?_numeral (Decimal.numeral_plain _) hrest) ht

/-! ## What tokens of a text carry -/

/-- A number has no sign, and an identifier is a name. -/
def Token.Written : Token → Prop
  | number value => ∃ m, value = .finite false m
  | identifier name => IsName name
  | _ => True

theorem written_of_numeralToken {n : Numeral} {t : Token} (h : numeralToken n line = .ok t) :
    t.Written := by
  unfold numeralToken at h
  split at h
  · rename_i m hm
    cases h
    exact ⟨m, rfl⟩
  · cases h

theorem written_of_wordToken {cs : List Char} (hs : cs.head?.any isWordStart = true)
    (hp : ∀ c ∈ cs, isWordPart c = true) : (wordToken cs).Written := by
  cases ht : wordToken cs with
  | identifier name => exact isName_of_wordToken hs hp ht
  | number value =>
    unfold wordToken at ht
    split at ht <;> cases ht
  | _ => trivial

theorem written_of_signToken? {c : Char} {t : Token} (h : signToken? c = some t) : t.Written := by
  unfold signToken? at h
  split at h <;> cases h <;> trivial

/-- The token of a piece that was read. -/
theorem written_of_read? {cs : List Char} {piece : Piece} {t : Token}
    (h : Piece.read? cs = some (piece, rest)) (ht : piece.token? line = .ok (some t)) :
    t.Written := by
  unfold Piece.read? at h
  split at h
  · cases h
    cases ht
  split at h
  · cases h
    cases ht
  split at h
  · rename_i hs
    cases h
    cases ht
    apply written_of_wordToken
    · cases cs with
      | nil => cases hs
      | cons c cs =>
        have hc : isWordPart c = true := Piece.isWordPart_of_isWordStart hs
        rw [List.takeWhile_cons_of_pos hc]
        exact hs
    · intro c hc
      exact List.all_eq_true.mp List.all_takeWhile c hc
  split at h
  · cases h
    rename_i n _
    simp only [Piece.token?] at ht
    cases hn : numeralToken n line with
    | error e =>
      rw [hn] at ht
      cases ht
    | ok t' =>
      rw [hn] at ht
      cases ht
      exact written_of_numeralToken hn
  · unfold Piece.readSign? at h
    split at h
    · cases h
    · obtain ⟨t', hc, heq⟩ := Option.map_eq_some_iff.mp h
      cases heq
      cases ht
      exact written_of_signToken? hc

/-- All tokens of a text are written like that. -/
theorem written_of_tokenizeChars {cs : List Char} {ts : List Lexeme}
    (h : tokenizeChars line cs = .ok ts) : ∀ t ∈ ts, t.token.Written := by
  fun_induction tokenizeChars line cs generalizing ts with
  | case1 =>
    cases h
    exact nofun
  | case2 => cases h
  | case3 c cs piece rest hr ih =>
    cases ht : piece.token? line with
    | error e =>
      rw [ht] at h
      cases h
    | ok token? =>
      cases hts : tokenizeChars line rest with
      | error e =>
        rw [ht, hts] at h
        cases h
      | ok lexemes =>
        rw [ht, hts] at h
        cases h
        intro t hm
        rcases List.mem_append.mp hm with hm | hm
        · obtain ⟨token, hmem, rfl⟩ := List.mem_map.mp hm
          obtain rfl := Option.mem_toList.mp hmem
          exact written_of_read? hr ht
        · exact ih hts t hm

theorem written_of_tokenize {source : String} {ts : List Lexeme}
    (h : tokenize source line = .ok ts) : ∀ t ∈ ts, t.token.Written :=
  written_of_tokenizeChars h

end LineCalc
