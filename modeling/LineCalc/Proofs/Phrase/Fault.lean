import LineCalc.Proofs.Phrase.Blame
import LineCalc.Proofs.Phrase.Lookahead

/-!
# Where a reader finds something wrong

A reader that finds an error has come to a lexeme that it cannot go on with, or to the end. What it
took so far is the beginning of a phrase of its kind, and it has not looked behind the lexeme: with
anything else behind it, the error is the same.

* `IsPhrase c` are the tokens that are a phrase of the kind `c`, and `Viable L` the tokens that can
  be completed to a member of `L`.
* `SyntaxError.FoundAt` says which errors are found at a lexeme and which at the end, and `Fault`
  says all of this about one error. `Fault.lift` is for lexemes in front of those that were read.
* One lemma for each operation on readers, and `Phrase.faults_statement` puts them together, by
  induction on the nesting. A tree that is too deep is refused wherever its parts end, so nothing is
  said of that.
-/

namespace LineCalc

/-! ## Beginnings of phrases -/

/-- The tokens are a phrase of the given kind. -/
def IsPhrase (c : Category) (ts : List Token) : Prop := ∃ e, Derives c ts e

/-- The tokens are the beginning of a list that is in `L`. -/
def Viable (L : List Token → Prop) (ts : List Token) : Prop := ∃ us, L (ts ++ us)

variable {L L' : List Token → Prop}

theorem viable_of_mem {ts : List Token} (h : L ts) : Viable L ts :=
  ⟨[], by rwa [List.append_nil]⟩

theorem Viable.of_append {ts us : List Token} (h : Viable L (ts ++ us)) : Viable L ts := by
  obtain ⟨vs, h⟩ := h
  exact ⟨us ++ vs, by rwa [← List.append_assoc]⟩

/-- A beginning behind `front` is a beginning with it, if `front` is one in front of whole lists. -/
theorem Viable.lift {ts : List Token} (h : Viable L ts) (front : List Token)
    (hL : ∀ us, L us → Viable L' (front ++ us)) : Viable L' (front ++ ts) := by
  obtain ⟨us, h⟩ := h
  have hv := hL (ts ++ us) h
  rw [← List.append_assoc] at hv
  exact hv.of_append

theorem viable_operand_nil : Viable (IsPhrase .operand) [] :=
  ⟨[.identifier ""], .var "" 0, .name "" 0⟩

/-! ## Faults -/

/-- The lexemes end in an open group with an expression in it, which was opened on the given
line. -/
def InGroup (ts : List Lexeme) (line : Nat) : Prop :=
  ∃ outer inner, ts = outer ++ ⟨.opening, line⟩ :: inner ∧ IsPhrase .expression (tokens inner)

theorem InGroup.append {ts : List Lexeme} {line : Nat} (h : InGroup ts line)
    (front : List Lexeme) : InGroup (front ++ ts) line := by
  obtain ⟨outer, inner, rfl, hinner⟩ := h
  exact ⟨front ++ outer, inner, (List.append_assoc _ _ _).symm, hinner⟩

/-- What an error says that is found behind the given lexemes: at the next one, or at the end. -/
def SyntaxError.FoundAt (before : List Lexeme) : Option Lexeme → SyntaxError → Prop
  | some t, unexpectedToken text line => text = t.token.text ∧ line = t.line
  | none, unexpectedEnd _ => True
  | _, unclosed line => InGroup before line
  | _, _ => False

theorem SyntaxError.FoundAt.append {x : SyntaxError} {before : List Lexeme} {t? : Option Lexeme}
    (h : x.FoundAt before t?) (front : List Lexeme) : x.FoundAt (front ++ before) t? := by
  cases x with
  | unclosed line => cases t? <;> exact InGroup.append h front
  | _ => cases t? <;> exact h

variable {ι : Type} {read read' : ι → List Lexeme → Reply}

/-- What is wrong with lexemes that are to begin with a list in `L`. Each of the given readers finds
the same error, whatever stands behind the lexeme that it is found at. -/
inductive Fault (L : List Token → Prop) (read : ι → List Lexeme → Reply) (ts : List Lexeme) :
    SyntaxError → Prop
  | tooDeep (line : Nat) : Fault L read ts (.tooDeep line)
  | atEnd {x : SyntaxError} (hx : x.FoundAt ts none) (hv : Viable L (tokens ts)) : Fault L read ts x
  | atLexeme {x : SyntaxError} {before : List Lexeme} {t : Lexeme} {after : List Lexeme}
      (hts : ts = before ++ t :: after) (hx : x.FoundAt before (some t))
      (hv : Viable L (tokens before))
      (hread : ∀ i us, (read i (before ++ t :: us)).outcome = .error x) : Fault L read ts x

/-- A fault behind `front` is one of the lexemes with `front`. -/
theorem Fault.lift {ts : List Lexeme} {x : SyntaxError} (h : Fault L read ts x)
    (front : List Lexeme) (hL : ∀ us, L us → Viable L' (tokens front ++ us))
    (hread : ∀ i us, us.head? = ts.head? → (read i us).outcome = .error x →
      (read' i (front ++ us)).outcome = .error x) : Fault L' read' (front ++ ts) x := by
  cases h with
  | tooDeep line => exact .tooDeep line
  | atEnd hx hv =>
    refine .atEnd (hx.append front) ?_
    rw [tokens, List.map_append]
    exact hv.lift (tokens front) hL
  | @atLexeme _ before t after hts hx hv hfound =>
    subst hts
    refine .atLexeme (List.append_assoc front before (t :: after)).symm (hx.append front) ?_
      fun i us => ?_
    · rw [tokens, List.map_append]
      exact hv.lift (tokens front) hL
    · rw [List.append_assoc]
      exact hread i _ (head?_append_congr before rfl) (hfound i us)

theorem Reply.outcome_grow_of_error {r : Reply} {x : SyntaxError} (h : r.outcome = .error x)
    (line : Nat) (make : Expr → Numbering → Expr × Numbering) :
    (r.grow line make).outcome = .error x := by
  rw [grow_of_error h, h]

namespace Phrase

variable {p : Phrase} {q : ι → Phrase}

/-- Every error of the reader is a fault in lexemes that are to begin with a phrase of the given
kind, and each of the other readers finds it too. -/
def Faults (p : Phrase) (q : ι → Phrase) (c : Category) : Prop :=
  ∀ ⦃ts : List Lexeme⦄ ⦃k : Numbering⦄ ⦃x : SyntaxError⦄, (p.read ts k).outcome = .error x →
    Fault (IsPhrase c) (fun i us => (q i).read us k) ts x

/-- The same of readers for what stands behind an opening parenthesis: the fault is one of an
operand that starts with it. -/
def GroupFaults (group : Nat → Phrase) (group' : ι → Nat → Phrase) : Prop :=
  ∀ ⦃line : Nat⦄ ⦃ts : List Lexeme⦄ ⦃k : Numbering⦄ ⦃x : SyntaxError⦄,
    ((group line).read ts k).outcome = .error x →
      Fault (IsPhrase .operand) (fun i us => (operand (group' i)).read us k)
        (⟨.opening, line⟩ :: ts) x

/-- A token that starts no operand is refused. -/
theorem readOperand_of_misplaced (group : Nat → Phrase) {t : Lexeme}
    (hnumber : ∀ value, t.token ≠ .number value) (hname : ∀ name, t.token ≠ .identifier name)
    (hopening : t.token ≠ .opening) (ts : List Lexeme) (k : Numbering) :
    readOperand group (t :: ts) k = ⟨.error (.unexpectedToken t.token.text t.line), ts, k⟩ := by
  obtain ⟨token, line⟩ := t
  cases token with
  | number value => exact absurd rfl (hnumber value)
  | identifier name => exact absurd rfl (hname name)
  | opening => exact absurd rfl hopening
  | _ => rfl

theorem faults_operand {group : Nat → Phrase} {group' : ι → Nat → Phrase}
    (hg : GroupFaults group group') :
    Faults (operand group) (fun i => operand (group' i)) .operand := by
  intro ts k x h
  simp only [operand] at h
  unfold readOperand at h
  split at h
  · cases h
    exact .atEnd trivial viable_operand_nil
  · cases h
  · cases h
  · exact hg h
  · rename_i token line ts hnumber hname hopening
    cases h
    refine .atLexeme (List.nil_append _).symm ⟨rfl, rfl⟩ viable_operand_nil fun i us => ?_
    exact congrArg Reply.outcome (readOperand_of_misplaced (group' i) hnumber hname hopening us k)

theorem close_of_error {r : Reply} {x : SyntaxError} (h : r.outcome = .error x) (line : Nat) :
    (close line r).outcome = .error x := by
  simp only [close, h]

/-- An expression in front of anything but a closing parenthesis leaves its group open. -/
theorem close_of_not_closing {rest : List Lexeme} (hr : ∀ t ∈ rest.head?, t.token ≠ .closing)
    (line : Nat) (e : Expr) (k : Numbering) :
    (close line (.read rest e k)).outcome = .error (.unclosed line) := by
  simp only [close, Reply.read]
  split
  · exact absurd rfl (hr _ rfl)
  · rfl
  · rfl

theorem close_eq_error {r : Reply} {line : Nat} {x : SyntaxError}
    (h : (close line r).outcome = .error x) :
    r.outcome = .error x ∨ ∃ rest e k, r = .read rest e k ∧ x = .unclosed line ∧
      ∀ t ∈ rest.head?, t.token ≠ .closing := by
  obtain ⟨outcome, rest, k⟩ := r
  cases outcome with
  | error x' => exact .inl h
  | ok e =>
    have hr : ∀ t ∈ rest.head?, t.token ≠ .closing := by
      rintro ⟨token, l⟩ ht rfl
      obtain ⟨more, rfl⟩ := List.head?_eq_some_iff.mp ht
      cases h
    have hx : (close line (.read rest e k)).outcome = .error x := h
    rw [close_of_not_closing hr] at hx
    exact .inr ⟨rest, e, k, rfl, (Except.error.inj hx).symm, hr⟩

theorem groupFaults_closed (hp : Faults p q .expression) (hs : Sound p .expression)
    (hl : LooksOneAhead p q) :
    GroupFaults (fun line => closed line p) fun i line => closed line (q i) := by
  intro line ts k x h
  rcases close_eq_error h with hx | ⟨rest, e, k', hread, rfl, hr⟩
  · refine (hp hx).lift [⟨.opening, line⟩] ?_ fun i us _ hx => close_of_error hx line
    rintro us ⟨e, he⟩
    exact ⟨[.closing], e, he.group⟩
  · obtain ⟨taken, rfl, hd, hq⟩ := hl.exists_taken hs hread
    have hgroup : InGroup (⟨.opening, line⟩ :: taken) line := ⟨[], taken, rfl, e, hd⟩
    have hv : Viable (IsPhrase .operand) (tokens (⟨.opening, line⟩ :: taken)) :=
      ⟨[.closing], e, hd.group⟩
    cases rest with
    | nil =>
      rw [List.append_nil]
      exact .atEnd hgroup hv
    | cons t rest =>
      refine .atLexeme rfl hgroup hv fun i us => ?_
      have hi : (q i).read (taken ++ t :: us) k = .read (t :: us) e k' := hq i _ rfl
      show (close line ((q i).read (taken ++ t :: us) k)).outcome = _
      have ht : ∀ u ∈ (t :: us).head?, u.token ≠ .closing := hr
      rw [hi, close_of_not_closing ht]

theorem faults_signed (hp : Faults p q .operand) :
    Faults (signed p) (fun i => signed (q i)) .factor := by
  have hplain : ∀ us, IsPhrase .operand us → Viable (IsPhrase .factor) us := by
    rintro us ⟨e, he⟩
    exact viable_of_mem ⟨e, he.plain⟩
  intro ts
  simp only [read_signed]
  induction ts with
  | nil =>
    intro k x h
    refine (hp h).lift [] hplain fun i us hus hx => ?_
    rw [List.nil_append, readSigned_of_head? (by simp [hus])]
    exact hx
  | cons t ts ih =>
    intro k x h
    unfold readSigned at h
    split at h
    · rename_i op hop
      rcases Reply.grow_eq_error h with h | rfl
      · refine (ih h).lift [t] ?_ fun i us _ hx => ?_
        · rintro us ⟨e, he⟩
          exact viable_of_mem ⟨_, he.sign 0 (ofPrefixSign?_eq_some_iff.mp hop)⟩
        · rw [List.singleton_append, readSigned]
          simp only [hop]
          exact Reply.outcome_grow_of_error hx _ _
      · exact .tooDeep _
    · rename_i hop
      refine (hp h).lift [] hplain fun i us hus hx => ?_
      rw [List.nil_append, readSigned_of_head? (by simp [hus, hop])]
      exact hx

section Chain

variable {operator? : Token → Option Operator} {inner outer : Category}

/-- A fault in the rest of a chain is one in what is to go on with what stands before it. -/
theorem fault_of_readChain (hp : Faults p q inner) (hs : Sound p inner) (hl : LooksOneAhead p q)
    (hnext : ∀ {ts us e f t op} (id : NodeId), Derives outer ts e → operator? t = some op →
      Derives inner us f → Derives outer (ts ++ t :: us) (.binary op e f id))
    {left : Expr} {ts : List Lexeme} {k : Numbering} {x : SyntaxError} {before : List Token}
    (hb : IsPhrase outer before) (h : (readChain operator? p left ts k).outcome = .error x) :
    Fault (fun us => IsPhrase outer (before ++ us))
      (fun i us => readChain operator? (q i) left us k) ts x := by
  obtain ⟨e, hb⟩ := hb
  fun_induction readChain operator? p left ts k generalizing before e with
  | case1 => cases h
  | case2 => cases h
  | case3 left k t ts op hop r x' =>
    rename_i hx
    obtain rfl := Except.error.inj (hx.symm.trans h)
    rcases Reply.grow_eq_error hx with hx | rfl
    · refine (hp hx).lift [t] ?_ fun i us _ hx => ?_
      · rintro us ⟨f, hf⟩
        exact viable_of_mem ⟨_, hnext 0 hb hop hf⟩
      · rw [List.singleton_append, readChain]
        simp only [hop, Reply.grow_of_error hx, hx]
    · exact .tooDeep _
  | case4 left k t ts op hop r joined hj =>
    rename_i ih
    obtain ⟨f, k', hf, hgrow⟩ := Reply.grow_eq_read (Reply.eq_read hj)
    obtain ⟨right, hts, hd, hq⟩ := hl.exists_taken hs hf
    have hfault := ih h _ (hnext 0 hb hop hd)
    rw [hts]
    refine hfault.lift (t :: right) ?_ fun i us hus hx => ?_
    · rintro us ⟨g, hg⟩
      exact viable_of_mem ⟨g, by simpa [tokens] using hg⟩
    · rw [List.cons_append, readChain]
      simp only [hop, hq i us hus, hgrow]
      exact hx

theorem faults_chain (hp : Faults p q inner) (hs : Sound p inner) (hl : LooksOneAhead p q)
    (hfirst : ∀ {ts e}, Derives inner ts e → Derives outer ts e)
    (hnext : ∀ {ts us e f t op} (id : NodeId), Derives outer ts e → operator? t = some op →
      Derives inner us f → Derives outer (ts ++ t :: us) (.binary op e f id)) :
    Faults (chain operator? p) (fun i => chain operator? (q i)) outer := by
  intro ts k x h
  simp only [read_chain, Reply.andThen] at h ⊢
  split at h
  · refine (hp h).lift [] ?_ fun i us _ hx => ?_
    · rintro us ⟨e, he⟩
      exact viable_of_mem ⟨e, hfirst he⟩
    · rw [List.nil_append]
      simp only [hx]
  · rename_i left hleft
    obtain ⟨first, hts, hd, hq⟩ := hl.exists_taken hs (Reply.eq_read hleft)
    have hfault := fault_of_readChain hp hs hl hnext ⟨left, hfirst hd⟩ h
    rw [hts]
    refine hfault.lift first (fun us hus => viable_of_mem hus) fun i us hus hx => ?_
    simp only [hq i us hus, Reply.read]
    exact hx

end Chain

theorem faults_sum {group : Nat → Phrase} {group' : ι → Nat → Phrase}
    (hg : GroupFaults group group') (hc : ClosesGroup group)
    (hl : ∀ line, LooksOneAhead (group line) fun i => group' i line) :
    Faults (sum group) (fun i => sum (group' i)) .expression := by
  have hfactor := looksOneAhead_signed (looksOneAhead_operand hl)
  have hterm : Faults (term group) (fun i => term (group' i)) .term :=
    faults_chain (faults_signed (faults_operand hg)) (sound_signed (sound_operand hc)) hfactor
      .firstFactor fun id hl hs hr => .nextFactor id hl (ofFactorSign?_eq_some_iff.mp hs) hr
  exact faults_chain hterm (sound_term hc) (looksOneAhead_chain _ hfactor) .firstTerm
    fun id hl hs hr => .nextTerm id hl (ofTermSign?_eq_some_iff.mp hs) hr

theorem groupFaults_group (nesting : Nat) :
    GroupFaults (group nesting) fun more => group (more + nesting) := by
  induction nesting with
  | zero =>
    intro line ts k x h
    cases h
    exact .tooDeep line
  | succ nesting ih =>
    have hc := closesGroup_group nesting
    have hl := looksOneAhead_group nesting
    exact groupFaults_closed (faults_sum ih hc hl) (sound_sum hc) (looksOneAhead_sum hl)

theorem faults_expression (nesting : Nat) :
    Faults (expression nesting) (fun more => expression (more + nesting)) .expression :=
  faults_sum (groupFaults_group nesting) (closesGroup_group nesting) (looksOneAhead_group nesting)

/-- A name alone is an expression, whatever the nesting. -/
theorem outcome_read_name (nesting : Nat) (name : String) (line : Nat) (k : Numbering) :
    ((expression nesting).read [⟨.identifier name, line⟩] k).outcome = .ok (.var name k.next) := by
  simp [expression, sum, term, factor, read_chain, Reply.andThen, read_signed, readSigned,
    Operator.ofPrefixSign?, operand, readOperand, readChain, Reply.made, Numbering.make]

theorem faults_assigned (hp : Faults p q .expression)
    (hname : ∀ i name line k, ∃ e, ((q i).read [⟨.identifier name, line⟩] k).outcome = .ok e) :
    Faults (assigned p) (fun i => assigned (q i)) .assignment := by
  intro ts k x h
  simp only [read_assigned] at h ⊢
  fun_induction readAssigned p ts k with
  | case1 name line l ts k ih =>
    rcases Reply.grow_eq_error h with h | rfl
    · refine (ih h).lift [⟨.identifier name, line⟩, ⟨.equals, l⟩] ?_ fun i us _ hx => ?_
      · rintro us ⟨e, he⟩
        exact viable_of_mem ⟨_, he.assign name 0 0⟩
      · exact Reply.outcome_grow_of_error hx _ _
    · exact .tooDeep _
  | case2 ts k hts =>
    have hvalue : ∀ us, IsPhrase .expression us → Viable (IsPhrase .assignment) us := by
      rintro us ⟨e, he⟩
      exact viable_of_mem ⟨e, he.value⟩
    cases hp h with
    | tooDeep line => exact .tooDeep line
    | atEnd hx hv => exact .atEnd hx (hv.lift [] hvalue)
    | @atLexeme _ before t after heq hx hv hread =>
      refine .atLexeme heq hx (hv.lift [] hvalue) fun i us => ?_
      rw [readAssigned_of_not_assignsFirst]
      · exact hread i us
      · intro ha
        by_cases hb : before = []
        · -- No fault is found at a name in front, so what was read starts with something else.
          subst hb
          obtain ⟨name, line, l, more, hfront⟩ := ha
          obtain ⟨rfl, -⟩ := List.cons.inj hfront
          obtain ⟨e, he⟩ := hname i name line k
          cases he.symm.trans (hread i [])
        · have hhead : (t :: us).head? = (t :: after).head? := rfl
          obtain ⟨name, line, l, more, hfront⟩ := assignsFirst_append_congr hb hhead ha
          exact hts name line l more (heq.trans hfront)

theorem faults_printed (hp : Faults p q .assignment) :
    Faults (printed p) (fun i => printed (q i)) .statement := by
  intro ts k x h
  simp only [read_printed] at h ⊢
  unfold readPrinted at h
  split at h
  · rename_i line ts
    rcases Reply.grow_eq_error h with h | rfl
    · refine (hp h).lift [⟨.print, line⟩] ?_ fun i us _ hx => Reply.outcome_grow_of_error hx _ _
      rintro us ⟨e, he⟩
      exact viable_of_mem ⟨_, he.print 0⟩
    · exact .tooDeep _
  · rename_i hts
    refine (hp h).lift [] ?_ fun i us hus hx => ?_
    · rintro us ⟨e, he⟩
      exact viable_of_mem ⟨e, he.silent⟩
    · rw [List.nil_append, readPrinted_of_head?]
      · exact hx
      · rw [hus]
        rintro ⟨token, line⟩ ht rfl
        obtain ⟨more, rfl⟩ := List.head?_eq_some_iff.mp ht
        exact hts line more rfl

/-- **Every error in a statement is a fault**: found at the end or at a lexeme that the reading does
not look behind, when what was taken is the beginning of a statement. -/
theorem faults_statement (nesting : Nat) :
    Faults (statement nesting) (fun more => statement (more + nesting)) .statement := by
  exact faults_printed (faults_assigned (faults_expression nesting)
    fun more name line k => ⟨_, outcome_read_name (more + nesting) name line k⟩)

end Phrase

end LineCalc
