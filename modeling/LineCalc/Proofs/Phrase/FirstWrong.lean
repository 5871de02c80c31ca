import Mathlib.Data.List.Infix
import LineCalc.Proofs.Phrase.Fault
import LineCalc.Proofs.Phrase.Line

/-!
# Errors are found at the first wrong token

A line that is no statement has a first lexeme that makes it wrong: what stands in front of that one
could have become a statement, and with it nothing can. Or the whole line could have become one, and
ends too early. The error of the line is about exactly that.

* `FirstWrong` is the first lexeme that makes lexemes wrong, and `Unfinished` says that they end too
  early. `FirstWrong.unique`: there is at most one such lexeme.
* `SyntaxError.Pinpoints` says what each error means.
* A statement is accepted or refused as too deep (`Reply.Passes`), and an error is found again
  whatever follows (`Fault`). So no statement begins with a lexeme that an error was found at:
  `not_viable_of_read`.
* `pinpoints_of_readLexemes` is about lines of lexemes, and `readLine_pinpoints_first_wrong` about
  lines of text.
-/

namespace LineCalc

/-- The lexeme `t` behind `before` is the first one that makes the lexemes wrong. -/
structure FirstWrong (ts before : List Lexeme) (t : Lexeme) : Prop where
  isPrefix : before ++ [t] <+: ts
  viable : Viable (IsPhrase .statement) (tokens before)
  not_viable : ¬ Viable (IsPhrase .statement) (tokens (before ++ [t]))

/-- The lexemes could have become a statement, but are none. -/
structure Unfinished (ts : List Lexeme) : Prop where
  viable : Viable (IsPhrase .statement) (tokens ts)
  not_statement : ¬ IsPhrase .statement (tokens ts)

/-- What an error in lexemes means. -/
def SyntaxError.Pinpoints (ts : List Lexeme) : SyntaxError → Prop
  | unexpectedToken text line =>
    ∃ before t, FirstWrong ts before t ∧ text = t.token.text ∧ line = t.line
  | trailing text line =>
    ∃ before t, FirstWrong ts before t ∧ IsPhrase .statement (tokens before) ∧
      text = t.token.text ∧ line = t.line
  | unexpectedEnd _ => Unfinished ts
  | unclosed line =>
    (Unfinished ts ∧ InGroup ts line) ∨
      ∃ before t, FirstWrong ts before t ∧ InGroup before line
  | tooDeep _ => True
  | outOfRange _ _ => False

variable {ts before : List Lexeme} {t : Lexeme} {x : SyntaxError}

/-- There is one first lexeme that makes lexemes wrong. -/
theorem FirstWrong.unique {before' : List Lexeme} {t' : Lexeme} (h : FirstWrong ts before t)
    (h' : FirstWrong ts before' t') : before = before' ∧ t = t' := by
  -- What reaches up to a first wrong lexeme is not within what stands in front of another one.
  have hle : ∀ {b b' : List Lexeme} {u u' : Lexeme}, FirstWrong ts b u → FirstWrong ts b' u' →
      b'.length ≤ b.length := by
    intro b b' u u' hb hb'
    refine Nat.le_of_not_lt fun hlt => ?_
    have hlength : (b ++ [u]).length ≤ b'.length := by
      rw [List.length_append, List.length_singleton]
      omega
    have hfront : b' <+: ts := (List.prefix_append b' [u']).trans hb'.isPrefix
    obtain ⟨more, hmore⟩ := List.prefix_of_prefix_length_le hb.isPrefix hfront hlength
    have hv := hb'.viable
    rw [← hmore, tokens, List.map_append] at hv
    exact hb.not_viable hv.of_append
  have hlength : (before ++ [t]).length = (before' ++ [t']).length := by
    rw [List.length_append, List.length_append]
    exact congrArg (· + 1) (Nat.le_antisymm (hle h' h) (hle h h'))
  have hsame := List.prefix_of_prefix_length_le h.isPrefix h'.isPrefix (Nat.le_of_eq hlength)
  exact List.append_singleton_inj.mp (hsame.eq_of_length hlength)

/-! ## What cannot become a statement -/

/-- The reply to a statement: nothing is left, or it is refused as too deep. -/
inductive Reply.Passes : Reply → Prop
  | whole (e : Expr) (k : Numbering) : Passes (.read [] e k)
  | tooDeep (line : Nat) (rest : List Lexeme) (k : Numbering) :
      Passes ⟨.error (.tooDeep line), rest, k⟩

/-- A statement is read to its end or refused as too deep, whatever the nesting. -/
theorem Derives.read_passes {e : Expr} (h : Derives .statement (tokens ts) e) {nesting : Nat}
    (hn : ts.length ≤ nesting) (k : Numbering) :
    ((Phrase.statement nesting).read ts k).Passes := by
  have hc := h.read_continues [] k rfl hn fun t ht => nomatch ht
  rw [List.append_nil] at hc
  show ((Phrase.ofCategory nesting .statement).read ts k).Passes
  generalize (Phrase.ofCategory nesting .statement).read ts k = r at hc ⊢
  cases hc with
  | proceeds f k' _ _ hr => exact hr ▸ .whole f k'
  | refuses line _ hr =>
    obtain ⟨outcome, rest, k'⟩ := r
    cases hr
    exact .tooDeep line rest k'

/-- Lexemes that are not read as a statement, whatever follows, cannot become one. -/
theorem not_viable_of_read (nesting : Nat) (k : Numbering)
    (h : ∀ more us,
      ¬ ((Phrase.statement (more + nesting)).read (before ++ t :: us) k).Passes) :
    ¬ Viable (IsPhrase .statement) (tokens (before ++ [t])) := by
  rintro ⟨us, e, hd⟩
  let vs : List Lexeme := us.map fun token => ⟨token, 0⟩
  have hvs : tokens vs = us := List.map_map.trans (List.map_id us)
  have htokens : tokens (before ++ t :: vs) = tokens (before ++ [t]) ++ us := by
    rw [← hvs]
    simp [tokens]
  rw [← htokens] at hd
  -- A completion may be of any length, and the nesting has to be great enough for it.
  exact h _ vs (hd.read_passes (Nat.le_add_right _ nesting) k)

variable {nesting : Nat} {k : Numbering}

/-- The lexeme that an error was found at cannot be part of a statement. -/
theorem not_viable_of_error (hx : x.FoundAt before (some t))
    (hread : ∀ more us,
      ((Phrase.statement (more + nesting)).read (before ++ t :: us) k).outcome = .error x) :
    ¬ Viable (IsPhrase .statement) (tokens (before ++ [t])) := by
  refine not_viable_of_read nesting k fun more us hp => ?_
  have hreply := hread more us
  generalize (Phrase.statement (more + nesting)).read (before ++ t :: us) k = r at hp hreply
  cases hp with
  | whole e k' => cases hreply
  | tooDeep line rest k' =>
    cases hreply
    exact hx

theorem prefix_of_eq_append {after : List Lexeme} (h : ts = before ++ t :: after) :
    before ++ [t] <+: ts := ⟨after, by rw [h, List.append_assoc]; rfl⟩

/-! ## Lines -/

/-- The error of a statement that could not be read. -/
theorem Fault.pinpoints
    (h : Fault (IsPhrase .statement)
      (fun more us => (Phrase.statement (more + nesting)).read us k) ts x)
    (hn : ¬ IsPhrase .statement (tokens ts)) : x.Pinpoints ts := by
  cases h with
  | tooDeep line => trivial
  | atEnd hx hv =>
    cases x with
    | unexpectedEnd line => exact ⟨hv, hn⟩
    | unclosed line => exact .inl ⟨⟨hv, hn⟩, hx⟩
    | _ => exact hx.elim
  | @atLexeme _ before t after hts hx hv hread =>
    have hfirst : FirstWrong ts before t :=
      ⟨prefix_of_eq_append hts, hv, not_viable_of_error hx hread⟩
    cases x with
    | unexpectedToken text line => exact ⟨before, t, hfirst, hx⟩
    | unclosed line => exact .inr ⟨before, t, hfirst, hx⟩
    | _ => exact hx.elim

/-- A lexeme behind a statement makes it wrong. -/
theorem pinpoints_trailing {k' : Numbering} {e : Expr} {rest : List Lexeme}
    (h : (Phrase.statement nesting).read ts k = .read (t :: rest) e k') :
    (SyntaxError.trailing t.token.text t.line).Pinpoints ts := by
  obtain ⟨before, hts, hd, hq⟩ := (Phrase.looksOneAhead_statement nesting).exists_taken
    (Phrase.sound_statement nesting) h
  refine ⟨before, t, ⟨prefix_of_eq_append hts, viable_of_mem ⟨e, hd⟩, ?_⟩, ⟨e, hd⟩, rfl, rfl⟩
  refine not_viable_of_read nesting k fun more us hp => ?_
  rw [hq more (t :: us) rfl] at hp
  cases hp

/-- No line with an error is a statement, unless it is refused as too deep. -/
theorem not_isPhrase_of_readLexemes {line : Nat} (h : (readLexemes ts line k).outcome = .error x)
    (hx : ∀ l, x ≠ .tooDeep l) : ¬ IsPhrase .statement (tokens ts) := by
  rintro ⟨e, he⟩
  rcases readLexemes_of_derives he with ⟨-, -, f, -, hok⟩ | ⟨-, l, hdeep⟩
  · cases h.symm.trans hok
  · exact hx l (Except.error.inj (h.symm.trans hdeep))

/-- Every error of a line of lexemes says what makes the line wrong. -/
theorem pinpoints_of_readLexemes {line : Nat} (h : (readLexemes ts line k).outcome = .error x) :
    x.Pinpoints ts := by
  by_cases hdeep : ∃ l, x = .tooDeep l
  · obtain ⟨l, rfl⟩ := hdeep
    trivial
  have hn := not_isPhrase_of_readLexemes h fun l hl => hdeep ⟨l, hl⟩
  unfold readLexemes at h
  split at h
  · cases h
  split at h
  · exact (hdeep ⟨_, (Except.error.inj h).symm⟩).elim
  · cases hr : readStatement ts k with
    | mk outcome rest k' =>
      rw [hr] at h
      cases outcome with
      | error x' =>
        have hx := (Phrase.faults_statement ts.length (congrArg Reply.outcome hr)).pinpoints hn
        cases x' <;> cases h <;> exact hx
      | ok e =>
        cases rest with
        | nil => cases h
        | cons t rest =>
          cases h
          exact pinpoints_trailing hr

/-- **A syntax error is about the first token that makes the line wrong.** If a text has tokens and
is refused, and not as too deep, then the error is one of these. A token that is unexpected, or that
trails a statement, is the first one that makes the line wrong: the tokens in front of it are the
beginning of a statement, or even a whole one, and with it they are not. If the end is unexpected,
the line is the beginning of a statement and no statement. If a group is not closed, it is open
behind an expression, and the line ends there or the next token is the first wrong one. The error
has the text of that token, and the line of it or of the parenthesis. -/
theorem readLine_pinpoints_first_wrong {source : String} {line : Nat} {ts : List Lexeme}
    {x : SyntaxError} (ht : tokenize source line = .ok ts) (next : NodeId)
    (h : (readLine source line next).outcome = .error x) : x.Pinpoints ts := by
  rw [readLine_of_tokenize ht] at h
  exact pinpoints_of_readLexemes h

/-- A group with two names in it: the second one is the first wrong token. -/
theorem readLine_pinpoints_first_wrong_of_two_names :
    ∃ ts, tokenize "print x = (y z)" 1 = .ok ts ∧
      (readLine "print x = (y z)" 1 0).outcome = .error (.unclosed 1) ∧
      (SyntaxError.unclosed 1).Pinpoints ts := by
  have ht : tokenize "print x = (y z)" 1 = .ok ([.print, .identifier "x", .equals, .opening,
      .identifier "y", .identifier "z", .closing].map (⟨·, 1⟩)) := by
    decide +kernel
  have h : (readLine "print x = (y z)" 1 0).outcome = .error (.unclosed 1) := by
    decide +kernel
  exact ⟨_, ht, h, readLine_pinpoints_first_wrong ht 0 h⟩

end LineCalc
