import LineCalc.CommandLine

/-!
# The program

The outer layer: it reads the arguments, files and standard input, and writes what the calculator
answers. A conversation is held line by line, everything else is run at once. The specification has
this under 10.8, and the exit code and the two streams under 10.9.
-/

namespace LineCalc.Program

/-- The texts about the arguments that this program shows. They stand for those of the library that
`abacus` reads its arguments with, which are worded in another way. -/
def texts : Request.Texts where
  usage :=
    "abacus is an interactive calculator for arithmetic expressions with variables\n\n" ++
    "Usage: abacus [OPTIONS] [CONTENTS]\n\n" ++
    "Arguments:\n" ++
    "  [CONTENTS]  The statement to evaluate, or the script path with --file. " ++
    "Starts an interactive session when omitted\n\n" ++
    "Options:\n" ++
    "  -v, --verbose...  Increases the amount of trace output on stderr (-v, -vv, -vvv)\n" ++
    "  -f, --file        Tells abacus to run a script file, one statement per line, " ++
    "instead of a single expression\n" ++
    "  -h, --help        Print help\n" ++
    "  -V, --version     Print version\n"
  misuse := ["error: the arguments cannot be understood", "",
    "Usage: abacus [OPTIONS] [CONTENTS]", "", "For more information, try '--help'."]

/-- Reads the bytes of a line, with its line feed. -/
partial def readLine (input : IO.FS.Stream) (bytes : Array UInt8) : IO (List UInt8) := do
  let next ← input.read 1
  match next.data.toList with
  | [] => return bytes.toList
  | byte :: _ =>
    if byte = 10 then return (bytes.push byte).toList
    else readLine input (bytes.push byte)

/-- Writes the output and the trace so far, and forgets them. -/
def flush (c : Console) : IO Console := do
  for event in Finish.shownTrace c.session.diagnostics do
    IO.eprintln event.terminalLine
  let output ← IO.getStdout
  output.putStr c.output
  output.flush
  return { c with output := "", session := c.session.collect }

/-- Holds a conversation from the next prompt on. -/
partial def converse (input : IO.FS.Stream) (c : Console) : IO (Console × Console.Ending) := do
  let c ← flush (c.prompt true)
  let bytes ← readLine input #[]
  if bytes.isEmpty then return (c, .done)
  match c.advance true bytes with
  | .more c => converse input c
  | .ended c ending => return (c, ending)

/-- Writes how a run ended, and gives its exit code. -/
def close (f : Finish) : IO UInt32 := do
  for line in f.traceLines do
    IO.eprintln line
  IO.print f.output
  for complaint in f.complaints do
    IO.eprintln complaint
  return f.exitCode.toUInt32

/-- The bytes of a file, if it can be read. -/
def readFile? (path : String) : IO (Option ByteArray) := do
  try
    return some (← IO.FS.readBinFile path)
  catch _ =>
    return none

end LineCalc.Program

open LineCalc LineCalc.Program in
/-- Runs the calculator. -/
def main (args : List String) : IO UInt32 := do
  match Request.ofArgs args with
  | .run ⟨verbosity, _, none⟩ =>
    let console := (Console.start (.start verbosity) 0).greet
    close (.ofInput (← converse (← IO.getStdin) console))
  | .run ⟨verbosity, isFile, some contents⟩ =>
    let file? ← if isFile then readFile? contents else pure none
    close (Options.run ⟨verbosity, isFile, some contents⟩ .empty fun _ => file?)
  | request => close (request.perform texts .empty fun _ => none)
