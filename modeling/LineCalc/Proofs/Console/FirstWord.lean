import Mathlib.Control.Monad.Basic
import LineCalc.Proofs.Console.Command
import LineCalc.Proofs.Phrase.Line
import LineCalc.Proofs.Text.Words
import LineCalc.Proofs.Token.LineEnd

/-!
# Statements in a conversation

A conversation asks whether a line is a command before it reads the line as a statement. Commands
are recognised by the first word of a line, cut at spaces of all kinds; statements are cut into
tokens, which only some of these spaces separate.

* `Command.loneWords` and `Command.showWords` are the words that commands start with, and
  `Command.ofLine?_eq_none_iff` says when a line is no command.
* `exists_tokens_of_firstWord`: if the first word of a line with tokens is a name, then it is the
  first token.
* `Derives.of_identifier`: a statement that starts with a name is no print statement, and if it is
  an assignment, then that name is its target.
* `Console.step_assignment_or_print`: the assignments and print statements that a conversation does
  not carry out are the assignments to a variable `dump` or `dot` with a space behind the name.
-/

namespace LineCalc

/-! ## Spaces and tokens -/

/-- The graphic characters of ASCII are no spaces. -/
theorem isSpace_eq_false_of_graphic {c : Char} (h : '!'.toNat ≤ c.toNat ∧ c.toNat ≤ '~'.toNat) :
    isSpace c = false := by
  have hlow : 0x21 ≤ c.toNat := h.1
  have hhigh : c.toNat ≤ 0x7e := h.2
  simp only [isSpace, Bool.or_eq_false_iff, Bool.and_eq_false_iff, decide_eq_false_iff_not,
    beq_eq_false_iff_ne]
  omega

theorem isSpace_eq_false_of_isWordPart {c : Char} (h : isWordPart c = true) :
    isSpace c = false := isSpace_eq_false_of_graphic (graphic_of_isWordPart h)

theorem isSpace_eq_false_of_isNumberPart {c : Char} (h : isNumberPart c = true) :
    isSpace c = false := by
  simp only [isNumberPart, Bool.or_eq_true, beq_iff_eq] at h
  rcases h with ((((h | rfl) | rfl) | rfl) | rfl) | rfl
  · exact isSpace_eq_false_of_graphic (graphic_of_isDigit h)
  all_goals rfl

theorem isSpace_eq_false_of_signToken? {c : Char} {t : Token} (h : signToken? c = some t) :
    isSpace c = false := by
  unfold signToken? at h
  split at h
  any_goals rfl
  cases h

/-- A text that a rule matches starts with no space that is not a separator. -/
theorem Means.isSeparator_of_isSpace {c : Char} {cs : List Char} {m : Meaning}
    (h : Means (c :: cs) m) (hc : isSpace c = true) : isSeparator c = true := by
  have hnot : isSpace c ≠ false := fun hn => Bool.noConfusion (hc.symm.trans hn)
  cases h with
  | number hn | outOfRange hn =>
    exact absurd (isSpace_eq_false_of_isNumberPart (hn.isNumberPart c List.mem_cons_self)) hnot
  | print | comment => cases hc
  | name hstart =>
    have hpart := Piece.isWordPart_of_isWordStart hstart
    exact absurd (isSpace_eq_false_of_isWordPart hpart) hnot
  | sign ht => exact absurd (isSpace_eq_false_of_signToken? ht) hnot
  | blanks _ h => exact h c List.mem_cons_self

/-- A space that is no separator starts no piece. -/
theorem Piece.read?_eq_none_of_isSpace {c : Char} (hc : isSpace c = true)
    (hs : ¬ isSeparator c = true) (cs : List Char) : read? (c :: cs) = none := by
  cases hr : read? (c :: cs) with
  | none => rfl
  | some taken =>
    obtain ⟨p, rest⟩ := taken
    obtain ⟨d, more, hp⟩ := List.exists_cons_of_ne_nil (chars_ne_nil_of_read? hr)
    have hchars := chars_of_read? hr
    have hm := means_of_read? hr
    rw [hp] at hchars hm
    obtain ⟨rfl, -⟩ := List.cons.inj hchars
    exact absurd (hm.isSeparator_of_isSpace hc) hs

variable {line : Nat} {rest : List Char}

/-- Spaces in front of a text with tokens contribute nothing: all of them are separators. -/
theorem tokenizeChars_of_spaces {front : List Char} {ts : List Lexeme}
    (hfront : ∀ c ∈ front, isSpace c = true) (h : tokenizeChars line (front ++ rest) = .ok ts) :
    tokenizeChars line rest = .ok ts := by
  induction front with
  | nil => exact h
  | cons c front ih =>
    obtain ⟨hc, hfront⟩ := List.forall_mem_cons.mp hfront
    rw [List.cons_append] at h
    by_cases hs : isSeparator c = true
    · rw [tokenizeChars_cons_separator hs] at h
      exact ih hfront h
    · rw [tokenizeChars_of_read?_eq_none (Piece.read?_eq_none_of_isSpace hc hs _)] at h
      cases h

/-- Words end in front of spaces. -/
theorem endsRun_isWordPart_of_isSpace (h : ∀ c, rest.head? = some c → isSpace c = true) :
    EndsRun isWordPart rest := by
  intro c hc
  rw [Bool.eq_false_iff]
  intro hpart
  exact Bool.noConfusion ((h c hc).symm.trans (isSpace_eq_false_of_isWordPart hpart))

/-- **If the first word of a text with tokens is a name, then it is the first token**, and the only
one if the argument is empty. -/
theorem exists_tokens_of_firstWord {name : String} (hn : IsName name) {cs : List Char}
    {ts : List Lexeme} (hword : firstWord cs = name.toList) (h : tokenizeChars line cs = .ok ts) :
    ∃ us, ts = ⟨.identifier name, line⟩ :: us ∧ (argument cs = [] → us = []) := by
  obtain ⟨front, behind, hcs, hfront, hhead, hargument⟩ := exists_firstWord cs
  rw [hcs, hword] at h
  have hspells : Spells line name.toList [.identifier name] behind :=
    spells_name hn (endsRun_isWordPart_of_isSpace hhead)
  have htokens : (tokenizeChars line behind).map ([⟨.identifier name, line⟩] ++ ·) = .ok ts :=
    Eq.trans hspells.symm (tokenizeChars_of_spaces hfront h)
  cases hbehind : tokenizeChars line behind with
  | error x =>
    rw [hbehind] at htokens
    cases htokens
  | ok us =>
    rw [hbehind] at htokens
    cases htokens
    refine ⟨us, rfl, fun hnil => ?_⟩
    rw [← List.append_nil behind] at hbehind
    have hdone := tokenizeChars_of_spaces (trim_eq_nil_iff.mp (hargument ▸ hnil)) hbehind
    rw [tokenizeChars] at hdone
    exact (Except.ok.inj hdone).symm

/-! ## Statements that start with a name -/

/-- A statement that starts with a name is no print statement. If it is an assignment, then that
name is its target, and more tokens follow. -/
theorem Derives.of_identifier {name : String} {ts : List Token} {e : Expr}
    (h : Derives .statement (.identifier name :: ts) e) :
    e.kind ≠ .print ∧ (e.isAssign = true → e.target? = some name ∧ ts ≠ []) := by
  cases h with
  | silent h =>
    cases h with
    | assign _ target id h =>
      exact ⟨nofun, fun _ => ⟨rfl, List.cons_ne_nil _ _⟩⟩
    | value h =>
      have hshape : e.Arithmetic := h.shape
      cases hshape with
      | literal | var | unary | binary => exact ⟨nofun, nofun⟩

/-! ## Lines that are commands -/

namespace Command

/-- The words that are commands when nothing follows them. -/
def loneWords : List String := ["help", "quit", "exit", "symbols"]

/-- The words that are commands in front of an expression. -/
def showWords : List String := ["dump", "dot"]

theorem isName_of_mem {word : String} (h : word ∈ loneWords ++ showWords) : IsName word := by
  revert word
  decide

/-- The first word of a line. -/
def word (line : String) : String := String.ofList (firstWord line.toList)

theorem ofWord?_eq_none_iff {word : String} {argument : List Char} :
    ofWord? word argument = none ↔
      (argument = [] → word ∉ loneWords) ∧ (argument ≠ [] → word ∉ showWords) := by
  cases argument with
  | nil =>
    simp only [ofWord?, loneWords, List.isEmpty_nil]
    grind
  | cons c cs =>
    simp only [ofWord?, showWords, List.isEmpty_cons]
    grind

/-- **A line is no command** exactly if its first word is none of the words that its commands start
with, where the argument decides which words these are. -/
theorem ofLine?_eq_none_iff {l : String} :
    ofLine? l = none ↔
      (argument l.toList = [] → word l ∉ loneWords) ∧
        (argument l.toList ≠ [] → word l ∉ showWords) :=
  ofWord?_eq_none_iff

variable {l : String} {line : Nat} {next : NodeId} {e : Expr}

/-- An assignment or print statement whose first word is one of a command is an assignment to the
variable of that name, and something follows the word. -/
theorem target?_of_word (h : (readLine l line next).outcome = .ok (some e))
    (he : e.isAssign = true ∨ e.kind = .print) (hword : word l ∈ loneWords ++ showWords) :
    e.target? = some (word l) ∧ argument l.toList ≠ [] := by
  obtain ⟨ts, ht, hd, -⟩ := derives_of_readLine h
  have hfirst : firstWord l.toList = (word l).toList := String.toList_ofList.symm
  obtain ⟨us, rfl, hnil⟩ := exists_tokens_of_firstWord (isName_of_mem hword) hfirst ht
  rw [tokens_cons] at hd
  obtain ⟨hprint, hassign⟩ := hd.of_identifier
  obtain ⟨htarget, hmore⟩ := hassign (he.resolve_right hprint)
  refine ⟨htarget, fun hargument => hmore ?_⟩
  rw [hnil hargument]
  rfl

end Command

/-! ## Assignments and print statements -/

namespace Console

variable {l : String} {line : Nat} {next : NodeId} {e : Expr}

/-- **Which assignments and print statements a conversation carries out.** If the first word of such
a line is `dump` or `dot`, then the line is an assignment to the variable of that name. It is taken
for a command, and the session stays as it is. With any other first word it is no command, and a
conversation does the same as it does without commands. -/
theorem step_assignment_or_print (h : (readLine l line next).outcome = .ok (some e))
    (he : e.isAssign = true ∨ e.kind = .print) :
    (Command.word l ∈ Command.showWords →
      e.target? = some (Command.word l) ∧ Command.ofLine? l ≠ none ∧
        ∀ c : Console, (c.step true l).session = c.session) ∧
    (Command.word l ∉ Command.showWords →
      Command.ofLine? l = none ∧ ∀ c : Console, c.step true l = c.step false l) := by
  refine ⟨fun hword => ?_, fun hword => ?_⟩
  · obtain ⟨htarget, hargument⟩ := Command.target?_of_word h he (List.mem_append_right _ hword)
    have hsome : Command.ofLine? l ≠ none := fun hnone =>
      (Command.ofLine?_eq_none_iff.mp hnone).2 hargument hword
    refine ⟨htarget, hsome, fun c => ?_⟩
    obtain ⟨command, hcommand⟩ := Option.ne_none_iff_exists'.mp hsome
    rw [step_command ((command?_true l).trans hcommand)]
  · have hnone : Command.ofLine? l = none := by
      refine Command.ofLine?_eq_none_iff.mpr ⟨fun hargument hlone => ?_, fun _ => hword⟩
      exact (Command.target?_of_word h he (List.mem_append_left _ hlone)).2 hargument
    exact ⟨hnone, step_of_not_command ((command?_true l).trans hnone)⟩

/-- Two assignments with a comment behind the name: one to a variable `dot`, which is not carried
out, and one to a variable `quit`, which is. -/
theorem step_assignment_or_print_of_comment :
    let taken : Expr := .assign (.var "dot" 1) (.var "x" 0) 2
    let left : Expr := .assign (.var "quit" 1) (.var "x" 0) 2
    ((readLine "\tdot //\r = x" 1 0).outcome = .ok (some taken) ∧
      Command.word "\tdot //\r = x" ∈ Command.showWords ∧
      (readLine "quit //\r = x" 1 0).outcome = .ok (some left) ∧
      Command.word "quit //\r = x" ∉ Command.showWords) ∧
    (taken.target? = some (Command.word "\tdot //\r = x") ∧
      ∀ c : Console, (c.step true "\tdot //\r = x").session = c.session) ∧
    Command.ofLine? "quit //\r = x" = none := by
  intro taken left
  have htaken : (readLine "\tdot //\r = x" 1 0).outcome = .ok (some taken) := by decide +kernel
  have hleft : (readLine "quit //\r = x" 1 0).outcome = .ok (some left) := by decide +kernel
  have hdot : Command.word "\tdot //\r = x" ∈ Command.showWords := by decide +kernel
  have hquit : Command.word "quit //\r = x" ∉ Command.showWords := by decide +kernel
  obtain ⟨htarget, -, hsession⟩ := (step_assignment_or_print htaken (Or.inl rfl)).1 hdot
  obtain ⟨hnone, -⟩ := (step_assignment_or_print hleft (Or.inl rfl)).2 hquit
  exact ⟨⟨htaken, hdot, hleft, hquit⟩, ⟨htarget, hsession⟩, hnone⟩

/-- An assignment to a variable `dump` is taken for the command to list the nodes of what follows
the name. -/
theorem not_statement_of_dump_assignment :
    ¬ ∀ (l : String) (line : Nat) (next : NodeId) (e : Expr),
      (readLine l line next).outcome = .ok (some e) → e.isAssign = true ∨ e.kind = .print →
        Command.ofLine? l = none := by
  intro h
  have he : (readLine "dump = 3" 1 0).outcome =
      .ok (some (.assign (.var "dump" 1) (.literal (.ofBits 0x4008000000000000) 0) 2)) := by
    decide +kernel
  have hcommand : Command.ofLine? "dump = 3" = some (.listing "= 3") := by decide +kernel
  rw [h _ _ _ _ he (Or.inl rfl)] at hcommand
  cases hcommand

end Console

end LineCalc
