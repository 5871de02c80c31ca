import LineCalc.Error
import LineCalc.Text.Terminal

/-!
# Diagnostics

A channel collects the errors that a line raises, and a trace tells what the calculator does on the
way. This is the module `diagnostics` of the specification (10.3).

* `Event` is something the trace can tell. Errors are always told; every other event has a level,
  and is told if the verbosity reaches it. `Event.line` is its text, and `Event.terminalLine` the
  same with nothing in it that a terminal would obey.
* `Diagnostics` is the channel: the errors raised since the last reset, the verbosity, and what the
  trace has told since it was last collected.
* `Diagnostics.raise` adds an error and tells it, `Diagnostics.tell` only tells and is `log` there.
-/

namespace LineCalc

/-- How much an event matters. -/
inductive Severity where
  | error
  | info
  | debug
  | trace
  deriving DecidableEq

/-- The name of a severity in front of a message. -/
def Severity.name : Severity → String
  | error => "ERROR"
  | info => "INFO"
  | debug => "DEBUG"
  | trace => "TRACE"

/-- The severity of a level. -/
def Severity.ofLevel : Nat → Severity
  | 0 => info
  | 1 => debug
  | _ => trace

/-- Something the trace can tell. -/
inductive Event where
  /-- An error was raised. -/
  | raised (error : Error)
  /-- A variable was declared for an assignment. -/
  | declared (name : String)
  /-- The evaluation of a tree begins. -/
  | traversing
  /-- A tree is not evaluated because of the errors that are pending. -/
  | skipping (pending : Nat)
  /-- A node is evaluated. -/
  | visiting (kind : NodeKind) (node : NodeId)
  /-- A variable keeps its value because the new one could not be computed. -/
  | keeping (name : String)
  /-- Any message at any level. -/
  | note (level : Nat) (text : String)
  deriving DecidableEq

namespace Event

/-- The least verbosity at which an event is told; errors have none and are always told. -/
def level? : Event → Option Nat
  | raised _ => none
  | declared _ => some 1
  | traversing => some 1
  | skipping _ => some 1
  | visiting _ _ => some 2
  | keeping _ => some 1
  | note level _ => some level

/-- Whether an event is told at the given verbosity. -/
def toldAt (verbosity : Nat) (e : Event) : Bool := e.level?.all (· ≤ verbosity)

/-- The severity of an event. -/
def severity (e : Event) : Severity :=
  match e.level? with
  | none => .error
  | some level => .ofLevel level

/-- The message for an event. -/
def message : Event → String
  | raised error => error.message
  | declared name => "Declare symbol \"" ++ name ++ "\""
  | traversing => "Traverse the AST"
  | skipping pending => "Skip the AST, " ++ toString pending ++ " error(s) already raised"
  | visiting kind node => "Visit " ++ kind.name ++ " node #" ++ toString node
  | keeping name => "Leave \"" ++ name ++ "\" unchanged, its value raised errors"
  | note _ text => text

/-- The line of a trace for an event. -/
def line (e : Event) : String := e.severity.name ++ " " ++ e.message

/-- The line of a trace as it is written to a terminal. -/
def terminalLine (e : Event) : String := e.severity.name ++ " " ++ disarmed e.message

end Event

/-- The channel for errors and the trace. -/
structure Diagnostics where
  /-- The errors raised since the last reset, oldest first. -/
  raised : Array Error
  /-- The greatest level that the trace tells. -/
  verbosity : Nat
  /-- What the trace has told since it was last collected, oldest first. -/
  trace : Array Event

namespace Diagnostics

/-- The channel without errors at the given verbosity. -/
def quiet (verbosity : Nat) : Diagnostics := ⟨#[], verbosity, #[]⟩

instance : Inhabited Diagnostics := ⟨quiet 0⟩

/-- Tells an event if the verbosity reaches its level. -/
def tell (d : Diagnostics) (e : Event) : Diagnostics :=
  if e.toldAt d.verbosity then { d with trace := d.trace.push e } else d

/-- Adds an error to those raised, and tells it. -/
def raise (d : Diagnostics) (e : Error) : Diagnostics :=
  { d with raised := d.raised.push e }.tell (.raised e)

/-- The number of errors raised. -/
def count (d : Diagnostics) : Nat := d.raised.size

/-- Whether a message of the given level would be told. -/
def enabled (d : Diagnostics) (level : Nat) : Bool := level ≤ d.verbosity

/-- Forgets the errors raised. -/
def reset (d : Diagnostics) : Diagnostics := { d with raised := #[] }

/-- Changes the verbosity. -/
def setVerbosity (d : Diagnostics) (verbosity : Nat) : Diagnostics :=
  { d with verbosity := verbosity }

/-- Forgets what the trace has told. -/
def collect (d : Diagnostics) : Diagnostics := { d with trace := #[] }

end Diagnostics

end LineCalc
