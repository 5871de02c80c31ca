import LineCalc.Proofs.Phrase.Line
import LineCalc.Proofs.Phrase.Shallow

/-!
# Groups that are open at a time

Parentheses are counted before a line is read. The count takes no notice of the grammar, and a
closing parenthesis with nothing to close counts for nothing. Yet it bounds the groups that are open
at a time while the line is read, whether or not the line is accepted: a reader goes on only behind
phrases, and these close what they open.

* `Phrase.groupOr beyond nesting` reads a group like `Phrase.group nesting`, and leaves it to
  `beyond` to read what follows one parenthesis too many. `readLineBy` reads a line with another
  reader for statements.
* `Derives.openedBehind_eq`: phrases close what they open.
* `Phrase.AgreeWithin` says of two readers that they read alike whatever does not open more than the
  given number of parentheses. One lemma for each operation on readers; what a reader leaves is of
  the same kind because of `Phrase.Sound.opensWithin_rest`.
* `Phrase.agreeWithin_group` is the induction on the number of parentheses that may still be opened.
* `readLine_within_limits`: what is done about a 257th open group makes no difference to any line,
  and every node made on the way heads a tree that is at most 256 nodes deep.
-/

namespace LineCalc

/-! ## Parentheses behind others that are open -/

/-- No front part of a list of tokens has more than `limit` parentheses open behind it, if `opened`
are open in front of it. -/
def OpensWithin (limit opened : Nat) (ts : List Token) : Prop :=
  ∀ before, before <+: ts → openedBehind opened before ≤ limit

namespace OpensWithin

variable {limit opened : Nat} {t : Token} {ts us : List Token}

theorem opened_le (h : OpensWithin limit opened ts) : opened ≤ limit := h [] List.nil_prefix

theorem tail (h : OpensWithin limit opened (t :: ts)) :
    OpensWithin limit (t.openedBehind opened) ts :=
  (forall_prefix_cons_iff.mp h).2

/-- Behind tokens that close what they open. -/
theorem behind (h : OpensWithin limit opened (ts ++ us)) (ht : openedBehind opened ts = opened) :
    OpensWithin limit opened us := by
  intro before hb
  have hle := (forall_prefix_append_iff.mp h).2 before hb
  rwa [openedBehind_append, ht] at hle

/-- What keeps two bounds keeps the smaller one. -/
theorem both {more : Nat} (h : OpensWithin limit opened ts) (h' : OpensWithin more opened ts) :
    OpensWithin (min limit more) opened ts :=
  fun before hb => Nat.le_min.mpr ⟨h before hb, h' before hb⟩

end OpensWithin

theorem Token.openedBehind_le (t : Token) (opened : Nat) : t.openedBehind opened ≤ opened + 1 := by
  cases t <;> simp only [Token.openedBehind] <;> omega

theorem openedBehind_le (ts : List Token) (opened : Nat) :
    openedBehind opened ts ≤ opened + ts.length := by
  induction ts generalizing opened with
  | nil => exact Nat.le_refl opened
  | cons t ts ih =>
    have ht := t.openedBehind_le opened
    have hts := ih (t.openedBehind opened)
    rw [openedBehind_cons, List.length_cons]
    omega

/-- A list does not open more parentheses than it has tokens. -/
theorem opensWithin_length (ts : List Token) : OpensWithin ts.length 0 ts := by
  intro before hb
  have hle := openedBehind_le before 0
  have hlength := hb.length_le
  omega

theorem TermSign.openedBehind {t : Token} {op : Operator} (h : TermSign t op) (opened : Nat) :
    t.openedBehind opened = opened := by
  cases h <;> rfl

theorem FactorSign.openedBehind {t : Token} {op : Operator} (h : FactorSign t op) (opened : Nat) :
    t.openedBehind opened = opened := by
  cases h <;> rfl

theorem PrefixSign.openedBehind {t : Token} {op : Operator} (h : PrefixSign t op) (opened : Nat) :
    t.openedBehind opened = opened := by
  cases h <;> rfl

/-- **Phrases close what they open.** -/
theorem Derives.openedBehind_eq {c : Category} {ts : List Token} {e : Expr} (h : Derives c ts e)
    (opened : Nat) : openedBehind opened ts = opened := by
  induction h generalizing opened with
  | print id h ih => exact ih opened
  | silent h ih => exact ih opened
  | assign name target id h ih => exact ih opened
  | value h ih => exact ih opened
  | firstTerm h ih => exact ih opened
  | nextTerm id hl hs hr ihl ihr =>
    rw [openedBehind_append, ihl, openedBehind_cons, hs.openedBehind, ihr]
  | firstFactor h ih => exact ih opened
  | nextFactor id hl hs hr ihl ihr =>
    rw [openedBehind_append, ihl, openedBehind_cons, hs.openedBehind, ihr]
  | sign id hs h ih => rw [openedBehind_cons, hs.openedBehind, ih]
  | plain h ih => exact ih opened
  | number value id => rfl
  | name name id => rfl
  | group h ih =>
    rw [List.cons_append, openedBehind_cons, openedBehind_append, ih]
    rfl

namespace Phrase

/-! ## Readers that agree -/

/-- The readers read alike whatever does not open more than `limit` parentheses at a time, if
`opened` are open in front of it. -/
def AgreeWithin (limit opened : Nat) (p q : Phrase) : Prop :=
  ∀ ts k, OpensWithin limit opened (tokens ts) → p.read ts k = q.read ts k

variable {limit opened : Nat} {p q : Phrase} {c : Category}

/-- What is left behind a phrase opens no more parentheses than the phrase and what is left. -/
theorem Sound.opensWithin_rest (hq : Sound q c) {ts : List Lexeme} {k : Numbering} {e : Expr}
    (h : OpensWithin limit opened (tokens ts)) (ho : (q.read ts k).outcome = .ok e) :
    OpensWithin limit opened (tokens (q.read ts k).rest) := by
  obtain ⟨taken, hts, hd, -⟩ := hq ts k e ho
  rw [hts, tokens, List.map_append] at h
  exact h.behind (hd.openedBehind_eq opened)

theorem agreeWithin_operand {group group' : Nat → Phrase}
    (hg : ∀ line, AgreeWithin limit (opened + 1) (group line) (group' line)) :
    AgreeWithin limit opened (operand group) (operand group') := by
  intro ts k h
  simp only [operand]
  unfold readOperand
  split
  · rfl
  · rfl
  · rfl
  · exact hg _ _ _ h.tail
  · rfl

theorem agreeWithin_closed (hp : AgreeWithin limit opened p q) (line : Nat) :
    AgreeWithin limit opened (closed line p) (closed line q) :=
  fun ts k h => congrArg (close line) (hp ts k h)

theorem agreeWithin_signed (hp : AgreeWithin limit opened p q) :
    AgreeWithin limit opened (signed p) (signed q) := by
  intro ts k h
  simp only [read_signed]
  induction ts with
  | nil => exact hp [] k h
  | cons t ts ih =>
    unfold readSigned
    split
    · rename_i op hop
      have ht := h.tail
      rw [(ofPrefixSign?_eq_some_iff.mp hop).openedBehind] at ht
      rw [ih ht]
    · exact hp _ k h

section Chain

variable {operator? : Token → Option Operator}

theorem readChain_eq_of_agreeWithin (hp : AgreeWithin limit opened p q) (hq : Sound q c)
    (hop : ∀ {t op}, operator? t = some op → t.openedBehind opened = opened) {left : Expr}
    {ts : List Lexeme} {k : Numbering} (h : OpensWithin limit opened (tokens ts)) :
    readChain operator? p left ts k = readChain operator? q left ts k := by
  fun_induction readChain operator? q left ts k with
  | case1 left k => rw [readChain]
  | case2 left k t ts hnone =>
    rw [readChain]
    simp only [hnone]
  | case3 left k t ts op hsome r x hx =>
    have ht := h.tail
    rw [hop hsome] at ht
    rw [readChain]
    simp only [hsome, hp ts k ht]
    simp only [r] at hx
    simp only [hx, r]
  | case4 left k t ts op hsome r joined hj ih =>
    have ht := h.tail
    rw [hop hsome] at ht
    obtain ⟨right, hr, -, -⟩ := Reply.grow_eq_ok hj
    have hrest : OpensWithin limit opened (tokens r.rest) := by
      simp only [r, Reply.rest_grow]
      exact hq.opensWithin_rest ht hr
    rw [readChain]
    simp only [hsome, hp ts k ht]
    simp only [r] at hj ih hrest ⊢
    simp only [hj, ih hrest]

theorem agreeWithin_chain (hp : AgreeWithin limit opened p q) (hq : Sound q c)
    (hop : ∀ {t op}, operator? t = some op → t.openedBehind opened = opened) :
    AgreeWithin limit opened (chain operator? p) (chain operator? q) := by
  intro ts k h
  simp only [read_chain, Reply.andThen, hp ts k h]
  split
  · rfl
  · rename_i left hl
    exact readChain_eq_of_agreeWithin hp hq hop (hq.opensWithin_rest h hl)

end Chain

theorem agreeWithin_sum {group group' : Nat → Phrase}
    (hg : ∀ line, AgreeWithin limit (opened + 1) (group line) (group' line))
    (hclose : ClosesGroup group') : AgreeWithin limit opened (sum group) (sum group') :=
  agreeWithin_chain
    (agreeWithin_chain (agreeWithin_signed (agreeWithin_operand hg))
      (sound_signed (sound_operand hclose))
      fun h => (ofFactorSign?_eq_some_iff.mp h).openedBehind opened)
    (sound_term hclose)
    fun h => (ofTermSign?_eq_some_iff.mp h).openedBehind opened

theorem agreeWithin_assigned (hp : AgreeWithin limit opened p q) :
    AgreeWithin limit opened (assigned p) (assigned q) := by
  intro ts k h
  simp only [read_assigned]
  fun_induction readAssigned q ts k with
  | case1 name line l ts k ih => rw [readAssigned, ih h.tail.tail]
  | case2 ts k hts =>
    rw [readAssigned]
    · exact hp ts k h
    · exact hts

theorem agreeWithin_printed (hp : AgreeWithin limit opened p q) :
    AgreeWithin limit opened (printed p) (printed q) := by
  intro ts k h
  simp only [read_printed]
  unfold readPrinted
  split
  · rw [hp _ k h.tail]
  · exact hp _ k h

/-! ## One group too many -/

/-- What follows an opening parenthesis on the given line, up to the parenthesis that closes it,
when `nesting` parentheses may be open at a time; `beyond` reads what follows one more. -/
def groupOr (beyond : Nat → Phrase) : Nat → Nat → Phrase
  | 0, line => beyond line
  | nesting + 1, line => closed line (sum (groupOr beyond nesting))

/-- A statement in which at most `nesting` parentheses are open at a time, apart from what `beyond`
reads. -/
def statementOr (beyond : Nat → Phrase) (nesting : Nat) : Phrase :=
  printed (assigned (sum (groupOr beyond nesting)))

theorem groupOr_refused (nesting line : Nat) :
    groupOr refused nesting line = group nesting line := by
  induction nesting generalizing line with
  | zero => rfl
  | succ nesting ih => rw [groupOr, group, funext ih]

/-- The reader for statements refuses one parenthesis too many. -/
theorem statementOr_refused (nesting : Nat) : statementOr refused nesting = statement nesting := by
  rw [statementOr, statement, expression, funext (groupOr_refused nesting)]

/-- Groups are read alike whatever is done about one too many, as long as `more` parentheses may be
opened in the group and no more than that are. -/
theorem agreeWithin_group (beyond : Nat → Phrase) {more nesting nesting' : Nat}
    (hl : limit ≤ opened + more) (hn : more ≤ nesting) (hn' : more ≤ nesting') (line : Nat) :
    AgreeWithin limit (opened + 1) (groupOr beyond nesting line) (group nesting' line) := by
  induction more generalizing opened nesting nesting' line with
  | zero =>
    intro ts k h
    have hle := h.opened_le
    omega
  | succ more ih =>
    obtain ⟨nesting, rfl⟩ := Nat.exists_eq_succ_of_ne_zero (Nat.ne_zero_of_lt hn)
    obtain ⟨nesting', rfl⟩ := Nat.exists_eq_succ_of_ne_zero (Nat.ne_zero_of_lt hn')
    have hl' : limit ≤ opened + 1 + more := by omega
    exact agreeWithin_closed (agreeWithin_sum
      (ih hl' (Nat.le_of_succ_le_succ hn) (Nat.le_of_succ_le_succ hn'))
      (closesGroup_group nesting')) line

/-- **Statements that keep a bound are read alike** by all readers that allow for it. -/
theorem agreeWithin_statement (beyond : Nat → Phrase) {nesting nesting' : Nat}
    (hn : limit ≤ nesting) (hn' : limit ≤ nesting') :
    AgreeWithin limit 0 (statementOr beyond nesting) (statement nesting') :=
  agreeWithin_printed (agreeWithin_assigned (agreeWithin_sum
    (agreeWithin_group beyond (Nat.le_of_eq (Nat.zero_add limit).symm) hn hn')
    (closesGroup_group nesting')))

end Phrase

/-! ## Lines -/

/-- Reads a line of text with the given reader for statements. -/
def readLineBy (statement : Phrase) (source : String) (line : Nat) (next : NodeId) : LineReply :=
  match tokenize source line with
  | .error e => ⟨.error e, .start next⟩
  | .ok ts =>
    if ts = [] then ⟨.ok none, .start next⟩
    else match overNested? 0 ts with
      | some line => ⟨.error (.tooDeep line), .start next⟩
      | none =>
        let r := statement.read ts (.start next)
        ⟨lineOutcome line r, r.nodes⟩

theorem readLineBy_statementOr (beyond : Nat → Phrase) {nesting : Nat} (hn : nestingLimit ≤ nesting)
    (source : String) (line : Nat) (next : NodeId) :
    readLineBy (.statementOr beyond nesting) source line next = readLine source line next := by
  unfold readLineBy readLine
  cases tokenize source line with
  | error x => rfl
  | ok ts =>
    cases hw : overNested? 0 ts with
    | some l => simp only [readLexemes, hw]
    | none =>
      -- Short lines keep the bound of their length, all others that of the test.
      have hnests : OpensWithin nestingLimit 0 (tokens ts) := overNested?_zero_eq_none_iff.mp hw
      have hlength : OpensWithin ts.length 0 (tokens ts) :=
        List.length_map Lexeme.token ▸ opensWithin_length (tokens ts)
      have hread := Phrase.agreeWithin_statement beyond
        (Nat.le_trans (Nat.min_le_left nestingLimit ts.length) hn)
        (Nat.min_le_right nestingLimit ts.length) ts (.start next) (hnests.both hlength)
      simp only [readLexemes, hw, hread, readStatement]

theorem shallow_readLine (source : String) (line : Nat) (next : NodeId) :
    (readLine source line next).nodes.Shallow := by
  have hstart := Numbering.shallow_start next
  unfold readLine
  split
  · exact hstart
  · unfold readLexemes
    split
    · exact hstart
    · split
      · exact hstart
      · exact Phrase.keepsShallow_statement _ _ _ hstart

/-- **No line nests beyond the limits while it is read**, accepted or not. A reader for statements
that gives up at the 257th open parenthesis reads every line as it is read, and so does any other
one in which 256 groups or more may be open at a time, whatever it does behind one parenthesis too
many. Every node that is made for a line heads a tree at most 256 nodes deep, also if it is given
up. So do all nodes that are made for the phrase at the front of any list of lexemes. -/
theorem readLine_within_limits :
    (∀ (source : String) (line : Nat) (next : NodeId),
      readLineBy (.statement 256) source line next = readLine source line next ∧
      (∀ (beyond : Nat → Phrase) (more : Nat),
        readLineBy (.statementOr beyond (256 + more)) source line next =
          readLine source line next) ∧
      ∀ e ∈ (readLine source line next).nodes.made, e.depth ≤ 256) ∧
    ∀ (ts : List Lexeme) (next : NodeId),
      (∀ e ∈ (readStatement ts (.start next)).nodes.made, e.depth ≤ 256) ∧
      (∀ e ∈ (readExpression ts (.start next)).nodes.made, e.depth ≤ 256) ∧
      ∀ e ∈ (readTerm ts (.start next)).nodes.made, e.depth ≤ 256 := by
  refine ⟨fun source line next => ⟨?_, fun beyond more => ?_, shallow_readLine source line next⟩,
    fun ts next => ?_⟩
  · rw [← Phrase.statementOr_refused]
    exact readLineBy_statementOr _ (Nat.le_refl 256) source line next
  · exact readLineBy_statementOr beyond (Nat.le_add_right 256 more) source line next
  · have hstart := Numbering.shallow_start next
    exact ⟨Phrase.keepsShallow_statement _ _ _ hstart,
      Phrase.keepsShallow_expression _ _ _ hstart, Phrase.keepsShallow_term _ _ _ hstart⟩

/-- The variable is made before the closing parenthesis is missed. -/
theorem readLine_within_limits_of_unclosed_group :
    ((readLine "-(x" 1 7).outcome.toOption = none ∧
        .var "x" 7 ∈ (readLine "-(x" 1 7).nodes.made) ∧
      (Expr.var "x" 7).depth ≤ 256 ∧
      readLineBy (.statement 256) "-(x" 1 7 = readLine "-(x" 1 7 := by
  have hmade : .var "x" 7 ∈ (readLine "-(x" 1 7).nodes.made := by decide +kernel
  obtain ⟨hread, -, hshallow⟩ := readLine_within_limits.1 "-(x" 1 7
  exact ⟨⟨by decide +kernel, hmade⟩, hshallow _ hmade, hread⟩

end LineCalc
