import LineCalc.Phrase

/-!
# The depth that is counted is the depth of the tree

The readers count the depth of what they put together, and compare the count with the limit before
the next node is made. What is counted is `Expr.depth` at every step. So they refuse the same trees
as readers that count nothing, but make each node first and measure the tree under it. These go
through the lexemes one by one, and the facts about reading are proved of them.

* `Reply.grow` puts one node on top of a tree and measures it.
* `Phrase.readSigned`, `Phrase.readAssigned`, `Phrase.readPrinted` and `Phrase.readChain` are the
  readers that measure.
* `Reply.pile_eq_foldl`: the count of a pile of nodes is the depth of the tree under each of them.
  `Phrase.readLinks_eq_readChain`: the count of a chain is the depth of its left part.
* `Phrase.read_signed`, `Phrase.read_assigned`, `Phrase.read_printed` and `Phrase.read_chain` say
  that the phrases are read in this way.
-/

namespace LineCalc

/-! ## Nodes that are measured -/

namespace Reply

/-- Puts on top of the tree of a reply what `make` makes from it. A tree that would be too deep is
refused, and nothing is made. -/
def grow (r : Reply) (line : Nat) (make : Expr → Numbering → Expr × Numbering) : Reply :=
  match r.outcome with
  | .error _ => r
  | .ok e =>
    if nestingLimit < (make e r.nodes).1.depth then { r with outcome := .error (.tooDeep line) }
    else made r.rest (make e r.nodes)

variable {r : Reply} {e : Expr} {line : Nat} {make : Expr → Numbering → Expr × Numbering}

@[simp] theorem rest_grow (r : Reply) (line : Nat) (make : Expr → Numbering → Expr × Numbering) :
    (r.grow line make).rest = r.rest := by
  unfold grow
  split
  · rfl
  · split <;> rfl

theorem grow_of_le (hr : r.outcome = .ok e) (hd : (make e r.nodes).1.depth ≤ nestingLimit) :
    r.grow line make = made r.rest (make e r.nodes) := by
  unfold grow
  rw [hr]
  exact if_neg (Nat.not_lt.mpr hd)

theorem grow_of_lt (hr : r.outcome = .ok e) (hd : nestingLimit < (make e r.nodes).1.depth) :
    r.grow line make = { r with outcome := .error (.tooDeep line) } := by
  unfold grow
  rw [hr]
  exact if_pos hd

theorem grow_of_error {x : SyntaxError} (h : r.outcome = .error x) (line : Nat)
    (make : Expr → Numbering → Expr × Numbering) : r.grow line make = r := by
  simp only [grow, h]

end Reply

/-! ## The count of a pile -/

theorem le_of_checkDepth_eq_ok {depth line : Nat} (h : checkDepth depth line = .ok ()) :
    depth ≤ nestingLimit := by
  unfold checkDepth at h
  split at h
  · cases h
  · omega

theorem of_checkDepth_eq_error {depth line : Nat} {x : SyntaxError}
    (h : checkDepth depth line = .error x) : nestingLimit < depth ∧ x = .tooDeep line := by
  unfold checkDepth at h
  split at h
  · exact ⟨‹_›, (Except.error.inj h).symm⟩
  · cases h

namespace Reply

/-- Puts a node on top of the tree of a reply and measures it. -/
def growTop (r : Reply) (t : Top) : Reply := r.grow t.line t.make

theorem foldl_growTop_of_error {r : Reply} {x : SyntaxError} (h : r.outcome = .error x)
    (tops : List Top) : tops.foldl growTop r = r := by
  induction tops with
  | nil => rfl
  | cons t tops ih => rw [List.foldl_cons, growTop, grow_of_error h, ih]

/-- As long as the count starts with the depth of the tree, it stays the depth of the tree. -/
theorem pileFrom_depth (rest : List Lexeme) (tops : List Top) (e : Expr) (k : Numbering) :
    pileFrom rest tops e.depth e k = tops.foldl growTop ⟨.ok e, rest, k⟩ := by
  induction tops generalizing e k with
  | nil => rfl
  | cons t tops ih =>
    rw [pileFrom, List.foldl_cons, growTop, ← t.depth_make e k]
    split
    · rename_i x hx
      obtain ⟨hlt, rfl⟩ := of_checkDepth_eq_error hx
      rw [grow_of_lt rfl hlt, foldl_growTop_of_error rfl]
    · rename_i hok
      rw [grow_of_le rfl (le_of_checkDepth_eq_ok hok), made, ← ih]

/-- **A pile that is counted is a pile that is measured.** -/
theorem pile_eq_foldl (r : Reply) (tops : List Top) : r.pile tops = tops.foldl growTop r := by
  unfold pile andThen
  split
  · rename_i x hx
    exact (foldl_growTop_of_error hx tops).symm
  · rename_i e he
    obtain ⟨outcome, rest, k⟩ := r
    cases he
    exact pileFrom_depth rest tops e k

theorem pile_reverse (r : Reply) (tops : List Top) :
    r.pile tops.reverse = tops.foldr (fun t r => r.growTop t) r := by
  rw [pile_eq_foldl, List.foldl_reverse]

end Reply

namespace Phrase

/-! ## What stands before a phrase -/

/-- Reads the signs before a phrase and the phrase; the last sign is applied first. -/
def readSigned (p : Phrase) : List Lexeme → Numbering → Reply
  | [], k => p.read [] k
  | t :: ts, k =>
    match Operator.ofPrefixSign? t.token with
    | some op => (readSigned p ts k).grow t.line fun e k => k.make (.unary op e)
    | none => p.read (t :: ts) k

/-- Reads the assignments before a phrase and the phrase; the last name is assigned first. -/
def readAssigned (p : Phrase) : List Lexeme → Numbering → Reply
  | ⟨.identifier name, line⟩ :: ⟨.equals, _⟩ :: ts, k =>
    (readAssigned p ts k).grow line (Top.makeAssign name)
  | ts, k => p.read ts k

/-- Reads the word `print` before a phrase, if it is there, and the phrase. -/
def readPrinted (p : Phrase) : List Lexeme → Numbering → Reply
  | ⟨.print, line⟩ :: ts, k => (p.read ts k).grow line fun e k => k.make (.print e)
  | ts, k => p.read ts k

section Front

variable (p : Phrase) (ts : List Lexeme) (k : Numbering)

theorem read_behind (front : Front) : (behind front p).read ts k =
    (front.take ts).1.foldr (fun t r => r.growTop t) (p.read (front.take ts).2 k) :=
  Reply.pile_reverse _ _

theorem read_signed : (signed p).read ts k = readSigned p ts k := by
  rw [signed, read_behind]
  simp only [Front.signs]
  induction ts with
  | nil => rfl
  | cons t ts ih =>
    unfold Front.takeSigns readSigned
    cases Operator.ofPrefixSign? t.token with
    | none => rfl
    | some op => exact congrArg (Reply.growTop · (.sign op t.line)) ih

theorem read_assigned : (assigned p).read ts k = readAssigned p ts k := by
  rw [assigned, read_behind]
  simp only [Front.targets]
  fun_induction readAssigned p ts k with
  | case1 name line l ts k ih =>
    rw [Front.takeTargets]
    exact congrArg (Reply.growTop · (.target name line)) ih
  | case2 ts k hts =>
    rw [Front.takeTargets]
    · rfl
    · exact hts

theorem read_printed : (printed p).read ts k = readPrinted p ts k := by
  rw [printed, read_behind]
  simp only [Front.printWord]
  unfold readPrinted
  split
  · rfl
  · rename_i hts
    rw [Front.takePrint]
    · rfl
    · exact hts

end Front

/-! ## The count of a chain -/

/-- Reads the rest of a chain behind its left part: as long as an operator follows, the next phrase
is read and joined to what is there. -/
def readChain (operator? : Token → Option Operator) (p : Phrase) (left : Expr)
    (ts : List Lexeme) (k : Numbering) : Reply :=
  match ts with
  | [] => ⟨.ok left, [], k⟩
  | t :: ts =>
    match operator? t.token with
    | none => ⟨.ok left, t :: ts, k⟩
    | some op =>
      let r := (p.read ts k).grow t.line fun right k => k.make (.binary op left right)
      match r.outcome with
      | .error _ => r
      | .ok joined => readChain operator? p joined r.rest r.nodes
termination_by ts.length
decreasing_by
  simp only [Reply.rest_grow]
  exact Nat.lt_succ_of_le (p.rest_suffix ts k).length_le

/-- **A chain that is counted is a chain that is measured**, if the count starts with the depth of
its left part. -/
theorem readLinks_eq_readChain (operator? : Token → Option Operator) (p : Phrase) (left : Expr)
    (ts : List Lexeme) (k : Numbering) :
    readLinks operator? p left left.depth ts k = readChain operator? p left ts k := by
  generalize hdepth : left.depth = depth
  fun_induction readLinks operator? p left depth ts k with
  | case1 left depth k => rw [readChain]
  | case2 left depth k t ts hop =>
    rw [readChain]
    simp only [hop]
  | case3 left depth k t ts op hop r x hx =>
    have hgrow : (p.read ts k).grow t.line (fun right k => k.make (.binary op left right)) =
        p.read ts k := Reply.grow_of_error hx _ _
    simp only [r] at hx
    rw [readChain]
    simp only [hop, hgrow, hx, r]
  | case4 left depth k t ts op hop r right hr joinedDepth x hd =>
    subst hdepth
    obtain ⟨hlt, rfl⟩ := of_checkDepth_eq_error hd
    have hgrow : (p.read ts k).grow t.line (fun right k => k.make (.binary op left right)) =
        { p.read ts k with outcome := .error (.tooDeep t.line) } := Reply.grow_of_lt hr hlt
    rw [readChain]
    simp only [hop, hgrow, r]
  | case5 left depth k t ts op hop r right hr joinedDepth _ hd joined ih =>
    subst hdepth
    have hgrow : (p.read ts k).grow t.line (fun right k => k.make (.binary op left right)) =
        .made r.rest joined := Reply.grow_of_le hr (le_of_checkDepth_eq_ok hd)
    rw [readChain]
    simp only [hop, hgrow, Reply.made]
    exact ih rfl

theorem read_chain (operator? : Token → Option Operator) (p : Phrase) (ts : List Lexeme)
    (k : Numbering) : (chain operator? p).read ts k =
    (p.read ts k).andThen (readChain operator? p) := by
  have hcount : (fun left => readLinks operator? p left left.depth) = readChain operator? p := by
    funext left ts k
    exact readLinks_eq_readChain operator? p left ts k
  simp only [chain, hcount]

end Phrase

end LineCalc
