import LineCalc.Token.Lexer

/-!
# Phrases

A phrase of the language is a reader that takes lexemes from the front of a list and makes a tree.
This is the module `parser` of the specification (10.6).

* `Reply` is what reading yields: a tree or an error, the lexemes that were not taken, and the nodes
  that were made. The last two are there after an error too.
* `Phrase` bundles a reader with the fact that it leaves an end part of the lexemes. Loops over
  phrases end because of it.
* `checkDepth` refuses a tree that is too deep, as `check_depth` of `abacus` does. The readers count
  the depth of what they put together as they go, and ask before a node is made.

The operations on phrases build the language.

* `Phrase.operand` is `parse_primary` of `abacus`, and `Phrase.closed` is `parse_grouping`.
* `Phrase.behind` reads a phrase behind a `Front`: first everything that stands before the phrase,
  then the phrase, and last the nodes are put on top of its tree. `Phrase.signed` does so with signs
  as in `parse_unary`, `Phrase.assigned` with names to assign to as in `parse_assignment`, and
  `Phrase.printed` with the word `print` as in `parse_statement`.
* `Phrase.chain` is a left-associative chain of phrases, the common form of `parse_additive` and
  `parse_multiplicative`.

Signs bind tighter than `*`, `/` and `%`, and those bind tighter than `+` and `-` between operands.

```text
statement  := "print" assignment | assignment
assignment := name "=" assignment | expression
expression := term (("+" | "-") term)*
term       := factor (("*" | "/" | "%") factor)*
factor     := ("+" | "-") factor | number | name | "(" expression ")"
```

* `Phrase.factor`, `Phrase.term` and `Phrase.sum` are the levels of arithmetic over a given reader
  for what follows an opening parenthesis.
* `Phrase.group` ties the knot. It is given how many parentheses may be open at a time, and refuses
  more.
* `Phrase.expression` and `Phrase.statement` are the phrases for a given nesting.

The nesting of a list of lexemes is at most its length, so nothing is refused for its nesting by
`readStatement`, `readExpression` and `readTerm`, which read from the front of a list.

A line holds one statement, or nothing but blanks and comments.

* `overNested?` finds parentheses that nest too deep, as `check_parentheses` does. They are refused
  before anything is read, so that the reading never opens more than `nestingLimit` groups at a
  time.
* `LineReply` is what a whole line yields, and `readLine` reads one, as `parse_line` does. Nothing
  may follow the statement.
-/

namespace LineCalc

/-- What reading a phrase yields. -/
structure Reply where
  /-- The tree, or why there is none. -/
  outcome : Except SyntaxError Expr
  /-- The lexemes that were not taken. -/
  rest : List Lexeme
  /-- The nodes made so far. -/
  nodes : Numbering

namespace Reply

/-- The reply with a tree that was just made. -/
def made (rest : List Lexeme) (new : Expr × Numbering) : Reply := ⟨.ok new.1, rest, new.2⟩

/-- Goes on behind a tree; an error stays what it is. -/
def andThen (r : Reply) (next : Expr → List Lexeme → Numbering → Reply) : Reply :=
  match r.outcome with
  | .error _ => r
  | .ok e => next e r.rest r.nodes

end Reply

/-- Refuses a depth beyond the limit; the given line is to blame. -/
def checkDepth (depth line : Nat) : Except SyntaxError Unit :=
  if nestingLimit < depth then .error (.tooDeep line) else .ok ()

/-! ## Nodes on top of a tree -/

/-- A node that is to be put on top of a tree. -/
structure Top where
  /-- The line to blame if the tree is too deep for it. -/
  line : Nat
  make : Expr → Numbering → Expr × Numbering
  depth_make : ∀ e k, (make e k).1.depth = e.depth + 1

namespace Top

/-- The operator of a sign. -/
def sign (op : Operator) (line : Nat) : Top where
  line := line
  make e k := k.make (.unary op e)
  depth_make _ _ := rfl

/-- The word `print`. -/
def print (line : Nat) : Top where
  line := line
  make e k := k.make (.print e)
  depth_make _ _ := rfl

/-- Makes the assignment of a value to a name; its target is made first. -/
def makeAssign (name : String) (value : Expr) (k : Numbering) : Expr × Numbering :=
  let (target, k) := k.make (.var name)
  k.make (.assign target value)

theorem depth_makeAssign (name : String) (value : Expr) (k : Numbering) :
    (makeAssign name value k).1.depth = value.depth + 1 := by
  have hv := value.depth_pos
  simp only [makeAssign, Numbering.make, Expr.depth]
  omega

/-- The assignment to a name. -/
def target (name : String) (line : Nat) : Top where
  line := line
  make := makeAssign name
  depth_make := depth_makeAssign name

end Top

namespace Reply

/-- Puts nodes on top of a tree, the first one first. The depth of the tree is counted along, and
once it would pass the limit nothing more is made. -/
def pileFrom (rest : List Lexeme) : List Top → Nat → Expr → Numbering → Reply
  | [], _, e, k => ⟨.ok e, rest, k⟩
  | t :: tops, depth, e, k =>
    match checkDepth (depth + 1) t.line with
    | .error x => ⟨.error x, rest, k⟩
    | .ok _ => pileFrom rest tops (depth + 1) (t.make e k).1 (t.make e k).2

/-- Puts nodes on top of the tree of a reply. -/
def pile (r : Reply) (tops : List Top) : Reply :=
  r.andThen fun e rest k => pileFrom rest tops e.depth e k

theorem rest_pileFrom (rest : List Lexeme) (tops : List Top) (depth : Nat) (e : Expr)
    (k : Numbering) : (pileFrom rest tops depth e k).rest = rest := by
  fun_induction pileFrom rest tops depth e k with
  | case1 | case2 => rfl
  | case3 _ _ _ _ _ _ _ ih => exact ih

@[simp] theorem rest_pile (r : Reply) (tops : List Top) : (r.pile tops).rest = r.rest := by
  unfold pile andThen
  split
  · rfl
  · exact rest_pileFrom _ _ _ _ _

end Reply

/-- A reader that leaves an end part of the lexemes it is given. -/
structure Phrase where
  /-- Reads from the given lexemes, when the given nodes have been made. -/
  read : List Lexeme → Numbering → Reply
  rest_suffix : ∀ ts k, (read ts k).rest <:+ ts

namespace Phrase

/-- Takes nothing and refuses what follows as too deep. -/
def refused (line : Nat) : Phrase where
  read ts k := ⟨.error (.tooDeep line), ts, k⟩
  rest_suffix ts _ := List.suffix_refl ts

/-! ## Operands -/

/-- Reads an operand: a number, a variable, or what `group` reads behind an opening parenthesis. -/
def readOperand (group : Nat → Phrase) : List Lexeme → Numbering → Reply
  | [], k => ⟨.error (.unexpectedEnd 0), [], k⟩
  | ⟨.number value, _⟩ :: ts, k => .made ts (k.make (.literal value))
  | ⟨.identifier name, _⟩ :: ts, k => .made ts (k.make (.var name))
  | ⟨.opening, line⟩ :: ts, k => (group line).read ts k
  | ⟨token, line⟩ :: ts, k => ⟨.error (.unexpectedToken token.text line), ts, k⟩

/-- An operand; `group` reads what follows an opening parenthesis on the given line. -/
def operand (group : Nat → Phrase) : Phrase where
  read := readOperand group
  rest_suffix ts k := by
    unfold readOperand
    split
    · exact List.suffix_refl _
    · exact List.suffix_cons _ _
    · exact List.suffix_cons _ _
    · exact ((group _).rest_suffix _ _).trans (List.suffix_cons _ _)
    · exact List.suffix_cons _ _

/-- Takes the closing parenthesis behind a tree that was read. -/
def close (line : Nat) (r : Reply) : Reply :=
  match r.outcome with
  | .error _ => r
  | .ok _ =>
    match r.rest with
    | ⟨.closing, _⟩ :: rest => { r with rest := rest }
    | [] => { r with outcome := .error (.unclosed line) }
    | _ :: rest => { r with outcome := .error (.unclosed line), rest := rest }

theorem rest_close_suffix (line : Nat) (r : Reply) : (close line r).rest <:+ r.rest := by
  unfold close
  split
  · exact List.suffix_refl _
  · split <;> rename_i h <;> simp [h]

/-- A phrase and the parenthesis that closes it; `line` is where that was opened. -/
def closed (line : Nat) (p : Phrase) : Phrase where
  read ts k := close line (p.read ts k)
  rest_suffix ts k := (rest_close_suffix line _).trans (p.rest_suffix ts k)

end Phrase

/-! ## What stands before a phrase -/

/-- What may stand before a phrase and asks for nodes on top of its tree. -/
structure Front where
  /-- Takes as much as there is: the nodes to be made, the topmost one first, and the rest. -/
  take : List Lexeme → List Top × List Lexeme
  rest_suffix : ∀ ts, (take ts).2 <:+ ts

namespace Front

/-- Takes signs. -/
def takeSigns : List Lexeme → List Top × List Lexeme
  | [] => ([], [])
  | t :: ts =>
    match Operator.ofPrefixSign? t.token with
    | some op =>
      let taken := takeSigns ts
      (.sign op t.line :: taken.1, taken.2)
    | none => ([], t :: ts)

/-- Any number of signs. -/
def signs : Front where
  take := takeSigns
  rest_suffix ts := by
    fun_induction takeSigns ts with
    | case1 => exact List.suffix_refl _
    | case2 t ts op hop taken ih => exact ih.trans (List.suffix_cons _ _)
    | case3 t ts hop => exact List.suffix_refl _

/-- Takes names to assign to. A name is one only if an equals sign follows it. -/
def takeTargets : List Lexeme → List Top × List Lexeme
  | ⟨.identifier name, line⟩ :: ⟨.equals, _⟩ :: ts =>
    let taken := takeTargets ts
    (.target name line :: taken.1, taken.2)
  | ts => ([], ts)

/-- Any number of names to assign to, each with its equals sign. -/
def targets : Front where
  take := takeTargets
  rest_suffix ts := by
    fun_induction takeTargets ts with
    | case1 name line l ts taken ih =>
      exact (ih.trans (List.suffix_cons _ _)).trans (List.suffix_cons _ _)
    | case2 ts hts => exact List.suffix_refl _

/-- Takes the word `print`. -/
def takePrint : List Lexeme → List Top × List Lexeme
  | ⟨.print, line⟩ :: ts => ([.print line], ts)
  | ts => ([], ts)

/-- The word `print`, or nothing. -/
def printWord : Front where
  take := takePrint
  rest_suffix ts := by
    unfold takePrint
    split
    · exact List.suffix_cons _ _
    · exact List.suffix_refl _

end Front

namespace Phrase

/-- A phrase behind what may stand before it. The node that was asked for last is made first. -/
def behind (front : Front) (p : Phrase) : Phrase where
  read ts k := (p.read (front.take ts).2 k).pile (front.take ts).1.reverse
  rest_suffix ts k := by
    rw [Reply.rest_pile]
    exact (p.rest_suffix _ k).trans (front.rest_suffix ts)

/-- A phrase with any number of signs before it. -/
def signed : Phrase → Phrase := behind .signs

/-- A phrase with any number of assignments before it. -/
def assigned : Phrase → Phrase := behind .targets

/-- A phrase with or without the word `print` before it. -/
def printed : Phrase → Phrase := behind .printWord

/-! ## Chains of operators -/

/-- Reads the rest of a chain behind its left part: as long as an operator follows, the next phrase
is read and joined to what is there. `depth` is the depth of the left part. -/
def readLinks (operator? : Token → Option Operator) (p : Phrase) (left : Expr) (depth : Nat)
    (ts : List Lexeme) (k : Numbering) : Reply :=
  match ts with
  | [] => ⟨.ok left, [], k⟩
  | t :: ts =>
    match operator? t.token with
    | none => ⟨.ok left, t :: ts, k⟩
    | some op =>
      let r := p.read ts k
      match r.outcome with
      | .error _ => r
      | .ok right =>
        let joinedDepth := max depth right.depth + 1
        match checkDepth joinedDepth t.line with
        | .error x => { r with outcome := .error x }
        | .ok _ =>
          let joined := r.nodes.make (.binary op left right)
          readLinks operator? p joined.1 joinedDepth r.rest joined.2
termination_by ts.length
decreasing_by exact Nat.lt_succ_of_le (p.rest_suffix ts k).length_le

theorem rest_readLinks_suffix (operator? : Token → Option Operator) (p : Phrase) (left : Expr)
    (depth : Nat) (ts : List Lexeme) (k : Numbering) :
    (readLinks operator? p left depth ts k).rest <:+ ts := by
  fun_induction readLinks operator? p left depth ts k with
  | case1 | case2 => exact List.suffix_refl _
  | case3 | case4 => exact (p.rest_suffix _ _).trans (List.suffix_cons _ _)
  | case5 left depth k t ts op hop r right hr joinedDepth _ hd joined ih =>
    exact (ih.trans (p.rest_suffix _ _)).trans (List.suffix_cons _ _)

/-- A chain of phrases joined by operators, the first two first. -/
def chain (operator? : Token → Option Operator) (p : Phrase) : Phrase where
  read ts k := (p.read ts k).andThen fun left => readLinks operator? p left left.depth
  rest_suffix ts k := by
    unfold Reply.andThen
    split
    · exact p.rest_suffix ts k
    · exact (rest_readLinks_suffix _ _ _ _ _ _).trans (p.rest_suffix ts k)

/-! ## The language -/

/-- An operand with its signs. -/
def factor (group : Nat → Phrase) : Phrase := signed (operand group)

/-- Factors joined by `*`, `/` and `%`. -/
def term (group : Nat → Phrase) : Phrase := chain Operator.ofFactorSign? (factor group)

/-- Terms joined by `+` and `-`. -/
def sum (group : Nat → Phrase) : Phrase := chain Operator.ofTermSign? (term group)

/-- What follows an opening parenthesis on the given line, up to the parenthesis that closes it,
when `nesting` parentheses may be open at a time. -/
def group : Nat → Nat → Phrase
  | 0, line => refused line
  | nesting + 1, line => closed line (sum (group nesting))

/-- An expression in which at most `nesting` parentheses are open at a time. -/
def expression (nesting : Nat) : Phrase := sum (group nesting)

/-- A statement in which at most `nesting` parentheses are open at a time. -/
def statement (nesting : Nat) : Phrase := printed (assigned (expression nesting))

end Phrase

/-- Reads a statement from the front of a list of lexemes. -/
def readStatement (ts : List Lexeme) (k : Numbering) : Reply :=
  (Phrase.statement ts.length).read ts k

/-- Reads an expression from the front of a list of lexemes. -/
def readExpression (ts : List Lexeme) (k : Numbering) : Reply :=
  (Phrase.expression ts.length).read ts k

/-- Reads factors joined by `*`, `/` and `%` from the front of a list of lexemes. -/
def readTerm (ts : List Lexeme) (k : Numbering) : Reply :=
  (Phrase.term (Phrase.group ts.length)).read ts k

/-! ## Lines -/

/-- The line of the first parenthesis that is open together with more than the allowed others, when
`opened` are open already. A closing parenthesis without an opening one counts for nothing. -/
def overNested? (opened : Nat) : List Lexeme → Option Nat
  | [] => none
  | ⟨.opening, line⟩ :: ts =>
    if nestingLimit < opened + 1 then some line else overNested? (opened + 1) ts
  | ⟨.closing, _⟩ :: ts => overNested? (opened - 1) ts
  | _ :: ts => overNested? opened ts

/-- What reading a line yields. -/
structure LineReply where
  /-- The statement, if the line holds one, or what is wrong with it. -/
  outcome : Except SyntaxError (Option Expr)
  /-- The nodes that were made. -/
  nodes : Numbering

/-- The outcome of a line whose statement was read: nothing may be left, and an end of the input is
reported on the line. -/
def lineOutcome (line : Nat) (r : Reply) : Except SyntaxError (Option Expr) :=
  match r.outcome, r.rest with
  | .error (.unexpectedEnd _), _ => .error (.unexpectedEnd line)
  | .error e, _ => .error e
  | .ok _, t :: _ => .error (.trailing t.token.text t.line)
  | .ok e, [] => .ok (some e)

/-- Reads the lexemes of a whole line. -/
def readLexemes (ts : List Lexeme) (line : Nat) (k : Numbering) : LineReply :=
  if ts = [] then ⟨.ok none, k⟩
  else match overNested? 0 ts with
    | some line => ⟨.error (.tooDeep line), k⟩
    | none =>
      let r := readStatement ts k
      ⟨lineOutcome line r, r.nodes⟩

/-- Reads a line of text; `next` is the number for the first node. -/
def readLine (source : String) (line : Nat) (next : NodeId) : LineReply :=
  match tokenize source line with
  | .error e => ⟨.error e, .start next⟩
  | .ok ts => readLexemes ts line (.start next)

end LineCalc
