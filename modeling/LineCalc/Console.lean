import LineCalc.Expr.Text
import LineCalc.Session
import LineCalc.Text.Lines

/-!
# The console

The calculator reads its input line by line and answers each line. In a conversation it greets,
prompts before each line and obeys commands; otherwise every line is a statement. An error is shown
and does not stop the reading. Conversations and scripts are in the specification under 10.8.

In a conversation some lines are no statements but commands to the calculator: a word alone, or a
word and an expression to be shown.

* `Command.ofChars?` recognises a command, as `Command::parse` of `abacus` does. Spaces around the
  line and around the expression do not matter; any other word before, and anything behind a word
  that stands alone, makes the line a statement.
* `Command.overview` tells what can be entered.
* `Console` is where the reading stands, with the output written so far.
* `Console.step` handles one line of text, `Console.advance` one line of bytes, and
  `Console.readLines` all lines of an input. The reading ends behind the last line, at a command
  that says so, or at a line that is not well-formed UTF-8.
* `runInput` reads a whole input in a session, as `run` does.

A script is a text of statements, one on each line. Its result is the value of its last statement,
or the first error that a line raises; nothing is read behind that line.

* `runScript` gives the result of a script in a session of its own, as `get_result` does.
-/

namespace LineCalc

/-! ## Commands -/

/-- A line of a conversation that is no statement. -/
inductive Command where
  /-- Show the overview. -/
  | help
  /-- End the conversation. -/
  | quit
  /-- List the variables. -/
  | store
  /-- List the nodes of a statement. -/
  | listing (source : String)
  /-- Show the graph of a statement. -/
  | graph (source : String)
  deriving DecidableEq

namespace Command

/-- The command of a word and what stands behind it. -/
def ofWord? (word : String) (argument : List Char) : Option Command :=
  if argument.isEmpty then
    if word = "help" then some help
    else if word = "quit" ∨ word = "exit" then some quit
    else if word = "symbols" then some store
    else none
  else if word = "dump" then some (listing (String.ofList argument))
  else if word = "dot" then some (graph (String.ofList argument))
  else none

/-- The command that a line is, if it is one. -/
def ofChars? (line : List Char) : Option Command :=
  let (word, rest) := cutWord (trim line)
  ofWord? (String.ofList word) (trim rest)

/-- The command that a line is, if it is one. -/
def ofLine? (line : String) : Option Command := ofChars? line.toList

/-- The overview of statements and commands. -/
def overview : String :=
  "Enter an expression, an assignment or a print statement:\n" ++
  "    2 + 3 * 4\n" ++
  "    x = (2 + 3) * 4\n" ++
  "    print x % 3\n" ++
  "Prefix '+' takes the absolute value, prefix '-' negates.\n" ++
  "\n" ++
  "Commands:\n" ++
  "    help          show this message\n" ++
  "    symbols       list all variables and their values\n" ++
  "    dump <expr>   show the nodes of an expression tree\n" ++
  "    dot <expr>    show an expression tree as a Graphviz graph\n" ++
  "    quit, exit    leave the calculator\n"

end Command

/-! ## Reading lines -/

/-- The version of the calculator. -/
def version : String := "0.1.0"

/-- Where the reading of an input stands. -/
structure Console where
  session : Session
  /-- The number for the next node. -/
  next : NodeId
  /-- The number of lines read. -/
  line : Nat
  /-- The number of lines that raised an error. -/
  failed : Nat
  /-- Everything written so far. -/
  output : String

namespace Console

/-- The console before the first line. -/
def start (session : Session) (next : NodeId) : Console := ⟨session, next, 0, 0, ""⟩

/-- Writes a text. -/
def write (c : Console) (text : String) : Console := { c with output := c.output ++ text }

/-- Writes the greeting of a conversation. -/
def greet (c : Console) : Console :=
  c.write ("ABACUS v" ++ version ++ "\n'help' for commands.\n")

/-- Writes the prompt of a conversation. -/
def prompt (c : Console) (interactive : Bool) : Console :=
  if interactive then c.write "calc> " else c

/-- The line that shows an error. -/
def errorLine (e : Error) : String := "error: " ++ e.message ++ "\n"

/-- Shows errors, one on each line. -/
def report (c : Console) (errors : List Error) : Console :=
  c.write (String.join (errors.map errorLine))

/-- Shows an answer: its errors, or else its value if that is for showing. -/
def answer (c : Console) (a : Answer) : Console :=
  if a.isOk then (if a.echo then c.write (a.value.plain ++ "\n") else c)
  else { c with failed := c.failed + 1 }.report a.errors

/-- Handles a statement on the current line. -/
def runStatement (c : Console) (source : String) : Console :=
  let turn := c.session.runLine source c.line c.next
  let c := { c with session := turn.session, next := turn.next }
  match turn.answer? with
  | none => c
  | some a => c.answer a

/-- Shows a statement on the current line in some form, without evaluating it. -/
def runShow (c : Console) (form : Expr → String) (source : String) : Console :=
  let reply := readLine source c.line c.next
  let c := { c with next := reply.nodes.next }
  match reply.outcome with
  | .ok none => c
  | .ok (some e) => c.write (form e)
  | .error e => c.report [.parsing e]

/-- Obeys a command on the current line. -/
def obey (c : Console) : Command → Console
  | .help => c.write Command.overview
  | .quit => c
  | .store => c.write c.session.store.listing
  | .listing source => c.runShow Expr.listing source
  | .graph source => c.runShow Expr.graph source

/-- The command that a line is; only a conversation has commands. -/
def command? (interactive : Bool) (source : String) : Option Command :=
  if interactive then Command.ofLine? source else none

/-- Handles the next line. -/
def step (c : Console) (interactive : Bool) (source : String) : Console :=
  let c := { c with line := c.line + 1 }
  match command? interactive source with
  | some command => c.obey command
  | none => c.runStatement source

/-- How the reading ended. -/
inductive Ending where
  /-- The input is at its end, or a command ended the reading. -/
  | done
  /-- A line is not well-formed UTF-8. -/
  | notText
  deriving DecidableEq

/-- How it goes on behind a line. -/
inductive Progress where
  /-- The next line is to be read. -/
  | more (console : Console)
  /-- No further line is read. -/
  | ended (console : Console) (ending : Ending)

/-- Handles the next line of bytes. -/
def advance (c : Console) (interactive : Bool) (bytes : List UInt8) : Progress :=
  match decodeLine bytes with
  | none => .ended c .notText
  | some source =>
    if command? interactive source = some .quit then .ended (c.step interactive source) .done
    else .more (c.step interactive source)

/-- Handles lines of bytes up to the end of the reading. -/
def readLines (interactive : Bool) : List (List UInt8) → Console → Console × Ending
  | [], c => (c.prompt interactive, .done)
  | bytes :: more, c =>
    match (c.prompt interactive).advance interactive bytes with
    | .more c => readLines interactive more c
    | .ended c ending => (c, ending)

end Console

/-- Reads a whole input in a session. -/
def runInput (session : Session) (next : NodeId) (input : ByteArray) (interactive : Bool) :
    Console × Console.Ending :=
  let c := Console.start session next
  Console.readLines interactive (byteLines input) (if interactive then c.greet else c)

/-! ## The result of a script -/

/-- Runs lines from the given number on; `last` is the value so far. -/
def runScriptLines (session : Session) (n : NodeId) (last : Option Binary64) :
    Nat → List String → Except Error (Option Binary64)
  | _, [] => .ok last
  | line, source :: more =>
    let turn := session.runLine source line n
    match turn.answer? with
    | none => runScriptLines turn.session turn.next last (line + 1) more
    | some a =>
      match a.errors with
      | e :: _ => .error e
      | [] => runScriptLines turn.session turn.next (some a.value) (line + 1) more

/-- The value of the last statement of a script; nothing if it holds none. -/
def runScript (source : String) : Except Error (Option Binary64) :=
  runScriptLines (.start 0) 0 none 1 (lines source)

end LineCalc
