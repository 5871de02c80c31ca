import LineCalc.Proofs.Phrase.Completeness

/-!
# How far a phrase is read

A phrase is read from the front of a list of lexemes, and what it does not take is left. The readers
take one phrase and no more, and they do not stop while it can go on: the lexeme that they stop at
is none of the signs that go on with a phrase of its kind. In front of any other lexeme, every
phrase is read to its end.

* `Category.signs` are the signs that go on with a phrase of a kind, and `Category.StopsAt` says
  that none of them comes next.
* `Phrase.Stops p P`: the lexeme that the reader `p` stops at has a token with `P`. One lemma for
  each operation on readers that looks at what stands behind a phrase. None is needed for groups:
  how a chain ends does not depend on what its groups hold.
* `Phrase.stopsAt_ofCategory`, `Phrase.sound_ofCategory` and `Derives.ofCategory_continues` are
  about all kinds of phrases.
* `Entry` are the readers that are called on their own, and `Entry.read_takes_one_phrase` is about
  all of them.
-/

namespace LineCalc

/-! ## Signs behind a phrase -/

namespace Category

/-- The signs that go on with a phrase of the given kind when they stand behind it. -/
def signs : Category → List Token
  | statement | assignment | expression => [.plus, .minus, .star, .slash, .percent]
  | term => [.star, .slash, .percent]
  | factor | operand => []

/-- No sign that goes on with a phrase of the given kind comes next. -/
def StopsAt (c : Category) (rest : List Lexeme) : Prop := ∀ t ∈ rest.head?, t.token ∉ c.signs

instance (c : Category) (rest : List Lexeme) : Decidable (c.StopsAt rest) :=
  inferInstanceAs (Decidable (∀ _ ∈ _, _))

theorem not_mem_signs_expression_iff {t : Token} :
    t ∉ expression.signs ↔ Operator.ofSign? t = none := by
  cases t <;> simp [signs, Operator.ofSign?, Operator.ofTermSign?, Operator.ofFactorSign?]

theorem not_mem_signs_term_iff {t : Token} :
    t ∉ term.signs ↔ Operator.ofFactorSign? t = none := by
  cases t <;> simp [signs, Operator.ofFactorSign?]

end Category

namespace Phrase

/-! ## Where readers stop -/

/-- If the reader yields a tree, then the lexeme that it stops at, if there is one, has a token with
`P`. -/
def Stops (p : Phrase) (P : Token → Prop) : Prop :=
  ∀ ts k e, (p.read ts k).outcome = .ok e → ∀ t ∈ (p.read ts k).rest.head?, P t.token

variable {p : Phrase} {P : Token → Prop} {operator? : Token → Option Operator}

/-- A chain stops where the last phrase in it stopped, and at no sign of its own. -/
theorem readChain_stops (hp : Stops p P) {left e : Expr} {ts : List Lexeme} {k : Numbering}
    (hts : ∀ t ∈ ts.head?, P t.token) (h : (readChain operator? p left ts k).outcome = .ok e) :
    ∀ t ∈ (readChain operator? p left ts k).rest.head?,
      P t.token ∧ operator? t.token = none := by
  fun_induction readChain operator? p left ts k with
  | case1 left k => simp
  | case2 left k t ts hop =>
    rintro u ⟨⟩
    exact ⟨hts t rfl, hop⟩
  | case3 left k t ts op hop r x hx =>
    rw [h] at hx
    cases hx
  | case4 left k t ts op hop r joined hj ih =>
    -- The phrase that was joined is the last one so far.
    obtain ⟨f, hf, -, -⟩ := Reply.grow_eq_ok hj
    refine ih ?_ h
    simp only [r, Reply.rest_grow]
    exact hp ts k f hf

theorem stops_chain (operator? : Token → Option Operator) (hp : Stops p P) :
    Stops (chain operator? p) fun t => P t ∧ operator? t = none := by
  intro ts k e h
  simp only [read_chain, Reply.andThen] at h ⊢
  split at h
  · rename_i x hx
    rw [h] at hx
    cases hx
  · rename_i left hl
    exact readChain_stops hp (hp ts k left hl) h

theorem stops_term (group : Nat → Phrase) : Stops (term group) (· ∉ Category.term.signs) := by
  intro ts k e h t ht
  have hfactor : Stops (factor group) fun _ => True := fun _ _ _ _ _ _ => trivial
  have hstop := stops_chain Operator.ofFactorSign? hfactor ts k e h t ht
  exact Category.not_mem_signs_term_iff.mpr hstop.2

theorem stops_sum (group : Nat → Phrase) : Stops (sum group) (· ∉ Category.expression.signs) := by
  intro ts k e h t ht
  have hstop := stops_chain Operator.ofTermSign? (stops_term group) ts k e h t ht
  have hfactor := Category.not_mem_signs_term_iff.mp hstop.1
  exact Category.not_mem_signs_expression_iff.mpr (Option.or_eq_none_iff.mpr ⟨hstop.2, hfactor⟩)

theorem stops_assigned (hp : Stops p P) : Stops (assigned p) P := by
  intro ts k e h
  simp only [read_assigned] at h ⊢
  fun_induction readAssigned p ts k generalizing e with
  | case1 name line l ts k ih =>
    obtain ⟨f, hf, -, -⟩ := Reply.grow_eq_ok h
    rw [Reply.rest_grow]
    exact ih f hf
  | case2 ts k => exact hp ts k e h

theorem stops_printed (hp : Stops p P) : Stops (printed p) P := by
  intro ts k e h
  simp only [read_printed] at h ⊢
  unfold readPrinted at h ⊢
  split at h
  · obtain ⟨f, hf, -, -⟩ := Reply.grow_eq_ok h
    rw [Reply.rest_grow]
    exact hp _ k f hf
  · exact hp _ k e h

/-! ## All kinds of phrases -/

/-- No reader stops at a sign that goes on with what it read. -/
theorem stopsAt_ofCategory (nesting : Nat) (c : Category) {ts : List Lexeme} {k : Numbering}
    {e : Expr} (h : ((ofCategory nesting c).read ts k).outcome = .ok e) :
    c.StopsAt ((ofCategory nesting c).read ts k).rest := by
  have hsum := stops_sum (group nesting)
  cases c with
  | statement => exact stops_printed (stops_assigned hsum) ts k e h
  | assignment => exact stops_assigned hsum ts k e h
  | expression => exact hsum ts k e h
  | term => exact stops_term (group nesting) ts k e h
  | factor | operand => exact fun t _ => List.not_mem_nil

/-- What a reader takes is a phrase of its kind, within the limit. -/
theorem sound_ofCategory (nesting : Nat) (c : Category) : Sound (ofCategory nesting c) c := by
  have hgroup := closesGroup_group nesting
  cases c with
  | statement => exact sound_statement nesting
  | assignment => exact sound_assigned (sound_expression nesting)
  | expression => exact sound_expression nesting
  | term => exact sound_term hgroup
  | factor => exact sound_signed (sound_operand hgroup)
  | operand => exact sound_operand hgroup

end Phrase

/-- **A phrase is read to its end** in front of what does not go on with it. A statement or an
assignment may be no more than a name, and an equals sign goes on with that too. -/
theorem Derives.ofCategory_continues {c : Category} {taken rest : List Lexeme} {e : Expr}
    {nesting : Nat} (h : Derives c (tokens taken) e) (hn : taken.length ≤ nesting)
    (hr : c.StopsAt rest)
    (hequals : c.isArithmetic = false → ∀ t ∈ rest.head?, t.token ≠ .equals) (k : Numbering) :
    ((Phrase.ofCategory nesting c).read (taken ++ rest) k).Continues e (.read rest) := by
  have hread := fun hends => h.read_continues rest k rfl hn hends
  cases c with
  | statement | assignment =>
    refine hread fun t ht => ⟨?_, hequals rfl t ht⟩
    exact Category.not_mem_signs_expression_iff.mp (hr t ht)
  | expression =>
    have hsign : ∀ t ∈ rest.head?, Operator.ofSign? t.token = none :=
      fun t ht => Category.not_mem_signs_expression_iff.mp (hr t ht)
    refine (hread fun t ht => (Option.or_eq_none_iff.mp (hsign t ht)).2).congr fun f k' => ?_
    exact Phrase.readChain_of_head? (fun t ht => (Option.or_eq_none_iff.mp (hsign t ht)).1) k'
  | term =>
    refine (hread trivial).congr fun f k' => ?_
    exact Phrase.readChain_of_head?
      (fun t ht => Category.not_mem_signs_term_iff.mp (hr t ht)) k'
  | factor | operand => exact hread trivial

/-- A phrase that nothing goes on with is read or refused by its depth. -/
theorem Reply.Continues.eq_read_or_refused {r : Reply} {e : Expr} {rest : List Lexeme}
    (h : r.Continues e (.read rest)) :
    (e.depth ≤ nestingLimit → ∃ f k, f.Alike e ∧ r = .read rest f k) ∧
      (nestingLimit < e.depth → ∃ line, r.outcome = .error (.tooDeep line)) := by
  cases h with
  | proceeds f k hd hf hr =>
    exact ⟨fun _ => ⟨f, k, hf, hr⟩, fun hlt => absurd hd (Nat.not_le.mpr hlt)⟩
  | refuses line hd hr => exact ⟨fun hle => absurd hle (Nat.not_le.mpr hd), fun _ => ⟨line, hr⟩⟩

/-- Signs make factors of any depth, so the limit refuses some. -/
theorem exists_derives_factor (n : Nat) :
    ∃ e, Derives .factor (List.replicate n .minus ++ [.identifier "x"]) e ∧ e.depth = n + 1 := by
  induction n with
  | zero => exact ⟨.var "x" 0, .plain (.name "x" 0), rfl⟩
  | succ n ih =>
    obtain ⟨e, he, hd⟩ := ih
    exact ⟨.unary .neg e 0, .sign 0 .minus he, congrArg (· + 1) hd⟩

/-! ## Reading on its own -/

/-- What can be read on its own from the front of a list of lexemes. -/
inductive Entry where
  | statement
  | expression
  /-- Terms joined by `+` and `-`, which is what an expression is. -/
  | sum
  /-- Factors joined by `*`, `/` and `%`. -/
  | term
  deriving DecidableEq

namespace Entry

/-- The kind of the phrases that are read. -/
def category : Entry → Category
  | statement => .statement
  | expression | sum => .expression
  | term => .term

/-- Reads from the front of a list of lexemes. -/
def read : Entry → List Lexeme → Numbering → Reply
  | statement => readStatement
  | expression => readExpression
  | sum => fun ts => (Phrase.sum (Phrase.group ts.length)).read ts
  | term => readTerm

theorem read_eq (entry : Entry) (ts : List Lexeme) (k : Numbering) :
    entry.read ts k = (Phrase.ofCategory ts.length entry.category).read ts k := by
  cases entry <;> rfl

theorem category_isArithmetic {entry : Entry} (h : entry ≠ .statement) :
    entry.category.isArithmetic = true := by
  cases entry with
  | statement => exact absurd rfl h
  | expression | sum | term => rfl

/-- **Reading takes exactly one phrase.** Whatever the lexemes are and whatever lines they stand on,
those that are left are an end part of them, after an error too. If there is a tree, then the
lexemes in front of that end part are a phrase of the kind that is read, with this tree, which is at
most 256 nodes deep, and the next lexeme is no sign that goes on with the phrase. Conversely, let a
phrase stand at the front, and behind it no sign that goes on with it; behind a statement, no equals
sign either. If its tree is at most 256 nodes deep, then it is read, up to the numbers of its nodes,
and all that stands behind it is left. Otherwise it is refused as too deep. -/
theorem read_takes_one_phrase (entry : Entry) (ts : List Lexeme) (k : Numbering) :
    (entry.read ts k).rest <:+ ts ∧
    (∀ e, (entry.read ts k).outcome = .ok e →
      ∃ taken, ts = taken ++ (entry.read ts k).rest ∧
        Derives entry.category (tokens taken) e ∧ e.depth ≤ 256 ∧
        entry.category.StopsAt (entry.read ts k).rest) ∧
    ∀ taken rest e, ts = taken ++ rest → Derives entry.category (tokens taken) e →
      entry.category.StopsAt rest →
      (entry = .statement → ∀ t ∈ rest.head?, t.token ≠ .equals) →
      (e.depth ≤ 256 → ∃ f k', f.Alike e ∧ entry.read ts k = .read rest f k') ∧
      (256 < e.depth → ∃ line, (entry.read ts k).outcome = .error (.tooDeep line)) := by
  rw [entry.read_eq]
  refine ⟨Phrase.rest_suffix _ ts k, fun e he => ?_, fun taken rest e hts hd hr heq => ?_⟩
  · obtain ⟨taken, hts, hd, hle⟩ := Phrase.sound_ofCategory ts.length entry.category ts k e he
    exact ⟨taken, hts, hd, hle, Phrase.stopsAt_ofCategory ts.length entry.category he⟩
  · have hlength : taken.length ≤ ts.length := by
      rw [hts, List.length_append]
      exact Nat.le_add_right _ _
    -- Only statements are no arithmetic among what is read on its own.
    have hequals : entry.category.isArithmetic = false → ∀ t ∈ rest.head?, t.token ≠ .equals := by
      intro hc
      by_cases hs : entry = .statement
      · exact heq hs
      · rw [category_isArithmetic hs] at hc
        cases hc
    have hread := hd.ofCategory_continues hlength hr hequals k
    rw [← hts] at hread
    exact hread.eq_read_or_refused

/-- A sum with a group in it, in front of a comment; and one sign too many before a name, in front
of a sign that does not go on with a term. -/
theorem read_takes_one_phrase_of_group_and_signs :
    (∃ f k', f.Alike (.binary .sub (.var "x" 0) (.unary .neg (.var "y" 0) 0) 0) ∧
      sum.read [⟨.identifier "x", 1⟩, ⟨.minus, 1⟩, ⟨.opening, 2⟩, ⟨.minus, 0⟩, ⟨.identifier "y", 5⟩,
        ⟨.closing, 2⟩, ⟨.comment, 9⟩, ⟨.plus, 9⟩] (.start 7) =
          .read [⟨.comment, 9⟩, ⟨.plus, 9⟩] f k' ∧
      f.depth ≤ 256) ∧
    ∃ line, (term.read (List.replicate 256 ⟨.minus, 1⟩ ++ [⟨.identifier "x", 1⟩] ++ [⟨.plus, 1⟩])
      (.start 7)).outcome = .error (.tooDeep line) := by
  constructor
  · obtain ⟨-, hphrase, hread⟩ := read_takes_one_phrase sum [⟨.identifier "x", 1⟩, ⟨.minus, 1⟩,
      ⟨.opening, 2⟩, ⟨.minus, 0⟩, ⟨.identifier "y", 5⟩, ⟨.closing, 2⟩, ⟨.comment, 9⟩, ⟨.plus, 9⟩]
      (.start 7)
    have hx : Derives .expression [.identifier "x"] (.var "x" 0) :=
      .firstTerm (.firstFactor (.plain (.name "x" 0)))
    have hy : Derives .expression [.minus, .identifier "y"] (.unary .neg (.var "y" 0) 0) :=
      .firstTerm (.firstFactor (.sign 0 .minus (.plain (.name "y" 0))))
    have hsum := hx.nextTerm 0 .minus (.firstFactor (.plain hy.group))
    obtain ⟨f, k', hf, hreply⟩ := (hread [⟨.identifier "x", 1⟩, ⟨.minus, 1⟩, ⟨.opening, 2⟩,
      ⟨.minus, 0⟩, ⟨.identifier "y", 5⟩, ⟨.closing, 2⟩] [⟨.comment, 9⟩, ⟨.plus, 9⟩] _ rfl hsum
      (by decide) nofun).1 (by decide)
    obtain ⟨-, -, -, hle, -⟩ := hphrase f (congrArg Reply.outcome hreply)
    exact ⟨f, k', hf, hreply, hle⟩
  · obtain ⟨e, he, hdepth⟩ := exists_derives_factor 256
    refine ((read_takes_one_phrase term _ (.start 7)).2.2 _ _ e rfl ?_ (by decide) nofun).2 ?_
    · rw [tokens, List.map_append, List.map_replicate]
      exact he.firstFactor
    · omega

/-- In front of an equals sign, a name is a statement that is not read. -/
example : Derives .statement (tokens [⟨.identifier "x", 1⟩]) (.var "x" 0) ∧
    (readStatement [⟨.identifier "x", 1⟩, ⟨.equals, 1⟩] (.start 0)).outcome =
      .error (.unexpectedEnd 0) :=
  ⟨.silent (.value (.firstTerm (.firstFactor (.plain (.name "x" 0))))), rfl⟩

end Entry

end LineCalc
