import LineCalc.Binary64.Arithmetic
import LineCalc.Diagnostics
import LineCalc.Phrase
import LineCalc.Store

/-!
# Sessions

A session is what lasts from one line to the next: the store of variables and the diagnostics.
Sessions share nothing.

A tree is evaluated in a session: its variables are read from the store, its assignments change the
store, and its errors go to the channel. An error does not stop the evaluation. The node that raises
it has the value `nan`, and everything else is evaluated all the same. This is the module
`evaluator` of the specification (4.2 and 10.4).

* `Operator.evalUnary` and `Operator.evalBinary` apply an operator to values. A zero of either sign
  as right operand of a division or remainder is an error. They are `apply_unary` and `apply_binary`
  of `abacus`.
* `Session.eval` evaluates a tree. An assignment stores its value unless an error was raised on the
  way to it, and needs its variable to be declared.
* `Session.evaluate` is the same behind a gate: with errors pending, nothing is evaluated.

A line is read, the variables it assigns to are declared, and it is evaluated. Whatever went wrong
is handed over with the answer, and the channel is empty for the next line. This is the module
`session` of the specification (10.7).

* `Session.declareTargets` declares the variables that a tree assigns to.
* `Answer` is what a line amounts to: its value, the errors, and whether to show the value. It is
  `Outcome` there.
* `Turn` is an answer together with the session and the number for the next node; blank lines have
  no answer.
* `Session.runLine` handles a line.
-/

namespace LineCalc

/-! ## What lasts from line to line -/

/-- The variables and the diagnostics of one run of the calculator. -/
structure Session where
  store : Store
  diagnostics : Diagnostics
  deriving Inhabited

namespace Session

/-- A session without variables at the given verbosity. -/
def start (verbosity : Nat) : Session := ⟨.empty, .quiet verbosity⟩

/-- Tells an event in the trace. -/
def tell (s : Session) (e : Event) : Session := { s with diagnostics := s.diagnostics.tell e }

/-- Raises an error. -/
def raise (s : Session) (e : Error) : Session := { s with diagnostics := s.diagnostics.raise e }

/-- Forgets the errors raised. -/
def reset (s : Session) : Session := { s with diagnostics := s.diagnostics.reset }

/-- Forgets what the trace has told. -/
def collect (s : Session) : Session := { s with diagnostics := s.diagnostics.collect }

end Session

/-! ## Evaluation -/

namespace Operator

/-- Applies an operator to one value; `node` is where an error arises. -/
def evalUnary (op : Operator) (x : Binary64) (node : NodeId) : Except EvalError Binary64 :=
  match op with
  | abs => .ok x.abs
  | neg => .ok (-x)
  | _ => .error (.misplaced op .unary node)

/-- Applies an operator to two values; `node` is where an error arises. -/
def evalBinary (op : Operator) (x y : Binary64) (node : NodeId) : Except EvalError Binary64 :=
  match op with
  | add => .ok (x + y)
  | sub => .ok (x - y)
  | mul => .ok (x * y)
  | div => if y.isZero then .error (.divisionByZero node) else .ok (x / y)
  | mod => if y.isZero then .error (.divisionByZero node) else .ok (x % y)
  | _ => .error (.misplaced op .binary node)

end Operator

namespace Session

/-- Raises an error of evaluation, and gives the value of the node that it arose at. -/
def fail (s : Session) (e : EvalError) : Binary64 × Session := (.nan, s.raise (.evaluation e))

/-- Gives a result, or raises the error in its place. -/
def settle (s : Session) : Except EvalError Binary64 → Binary64 × Session
  | .ok value => (value, s)
  | .error e => s.fail e

/-- Gives the value of a variable, or raises an error at the node that reads it. -/
def read (s : Session) (name : String) (node : NodeId) : Binary64 × Session :=
  match s.store.lookup name with
  | .ok value => (value, s)
  | .error _ => s.fail (.undefined name node)

/-- Stores the value of an assignment at the given node. -/
def write (s : Session) (name : String) (value : Binary64) (node : NodeId) : Binary64 × Session :=
  match s.store.assign name value with
  | .ok store => (value, { s with store := store })
  | .error _ => s.fail (.assignmentFailed name node)

/-- What is wrong with an assignment to a node of the given kind. -/
def badTarget (kind : NodeKind) : String :=
  "assignment target is a " ++ kind.name ++ " node, expected a variable"

/-- Evaluates a tree, and gives its value and the session afterwards. -/
def eval : Expr → Session → Binary64 × Session
  | .literal value id, s => (value, s.tell (.visiting .literal id))
  | .var name id, s => (s.tell (.visiting .var id)).read name id
  | .unary op operand id, s =>
    let (x, s) := eval operand (s.tell (.visiting .unary id))
    s.settle (op.evalUnary x id)
  | .binary op left right id, s =>
    let (x, s) := eval left (s.tell (.visiting .binary id))
    let (y, s) := eval right s
    s.settle (op.evalBinary x y id)
  | .assign target value id, s =>
    let s := s.tell (.visiting .assign id)
    match target with
    | .var name targetId =>
      if s.store.contains name then
        let before := s.diagnostics.count
        let (x, s) := eval value s
        if before < s.diagnostics.count then (.nan, s.tell (.keeping name))
        else s.write name x id
      else s.fail (.undefined name targetId)
    | _ => s.fail (.malformed (badTarget target.kind) id)
  | .print operand id, s => eval operand (s.tell (.visiting .print id))

/-- Evaluates a tree unless errors are pending. -/
def evaluate (s : Session) (e : Expr) : Binary64 × Session :=
  if s.diagnostics.count = 0 then eval e (s.tell .traversing)
  else (.nan, s.tell (.skipping s.diagnostics.count))

/-- Declares a variable unless it is declared. -/
def declareTarget (s : Session) (name : String) : Session :=
  match s.store.declare name with
  | .ok store => { s with store := store }.tell (.declared name)
  | .error _ => s

/-- Declares the variables that a tree assigns to; those that are declared keep their values. -/
def declareTargets (s : Session) (e : Expr) : Session := e.targets.foldl declareTarget s

end Session

/-! ## Lines -/

/-- What a line amounts to. -/
structure Answer where
  /-- The value of the line; `nan` if it has none. -/
  value : Binary64
  /-- The errors raised by the line, oldest first. -/
  errors : List Error
  /-- Whether the value is for showing. That of an assignment is not. -/
  echo : Bool
  deriving DecidableEq

/-- Whether the line raised no error. -/
def Answer.isOk (a : Answer) : Bool := a.errors.isEmpty

/-- What handling a line yields. -/
structure Turn where
  /-- The answer, if the line is not blank. -/
  answer? : Option Answer
  session : Session
  /-- The number for the next node. -/
  next : NodeId

namespace Session

/-- Hands over the errors raised, together with the value of a line. -/
def finish (s : Session) (value : Binary64) (echo : Bool) (next : NodeId) : Turn :=
  ⟨some ⟨value, s.diagnostics.raised.toList, echo⟩, s.reset, next⟩

/-- Handles a line of input. -/
def runLine (s : Session) (source : String) (line : Nat) (n : NodeId) : Turn :=
  let reply := readLine source line n
  match reply.outcome with
  | .ok none => ⟨none, s, reply.nodes.next⟩
  | .ok (some e) =>
    let (value, s) := (s.declareTargets e).evaluate e
    s.finish value (!e.isAssign) reply.nodes.next
  | .error e => (s.raise (.parsing e)).finish .nan false reply.nodes.next

end Session

end LineCalc
