import LineCalc.Console

/-!
# The command line

The calculator evaluates one statement given as an argument, runs a script file, or holds a
conversation on its standard input. The arguments and what they ask for are in the specification
under 10.8.

* `Request` is what the arguments ask for, and `Request.ofArgs` reads it. Arguments are read from
  left to right, and the first one that settles the matter does: a request for help or the version,
  or an argument that cannot be.
* `Request.perform` does what is asked for, and `Options.run` runs the calculator, as `main` of
  `abacus` does. The standard input and the files are given as values. So are the texts about the
  arguments, `Request.Texts`.
* `Finish` is how the program ends. The exit code is 1 if a line raised an error or the script file
  cannot be read, and 2 if the arguments are wrong or the input is no text.
-/

namespace LineCalc

/-- The options of a run and the statement or path, if there is one. -/
structure Options where
  /-- How often more trace output was asked for. -/
  verbosity : Nat
  /-- Whether the contents are the path of a script. -/
  isFile : Bool
  contents? : Option String
  deriving DecidableEq

/-- What the arguments ask for. -/
inductive Request where
  | help
  | version
  /-- The arguments cannot be understood. -/
  | misuse
  | run (options : Options)
  deriving DecidableEq

namespace Request

/-- What one argument does to the options: it changes them or settles the matter. -/
abbrev Reading := Except Request Options

/-- Asks for more trace output. -/
def verbose (o : Options) : Reading := .ok { o with verbosity := o.verbosity + 1 }

/-- Asks for a script; that can be asked for once. -/
def file (o : Options) : Reading :=
  if o.isFile then .error misuse else .ok { o with isFile := true }

/-- Gives the statement or path; there can be one. -/
def content (o : Options) (text : String) : Reading :=
  if o.contents?.isSome then .error misuse else .ok { o with contents? := some text }

/-- Reads the letters of short options. -/
def shortOptions (o : Options) : List Char → Reading
  | [] => .ok o
  | 'v' :: cs => do shortOptions (← verbose o) cs
  | 'f' :: cs => do shortOptions (← file o) cs
  | 'h' :: _ => .error help
  | 'V' :: _ => .error version
  | _ => .error misuse

/-- Reads the name of a long option. -/
def longOption (o : Options) (name : String) : Reading :=
  if name = "verbose" then verbose o
  else if name = "file" then file o
  else if name = "help" then .error help
  else if name = "version" then .error version
  else .error misuse

/-- Reads an argument that may be an option. -/
def argument (o : Options) (arg : String) : Reading :=
  match arg.toList with
  | '-' :: '-' :: name => longOption o (String.ofList name)
  | '-' :: c :: cs => shortOptions o (c :: cs)
  | _ => content o arg

/-- Reads the arguments from left to right. Two hyphens alone end the options. -/
def arguments (o : Options) : List String → Reading
  | [] => .ok o
  | arg :: args =>
    if arg = "--" then args.foldlM content o
    else do arguments (← argument o arg) args

/-- What the arguments of a run ask for. -/
def ofArgs (args : List String) : Request :=
  match arguments ⟨0, false, none⟩ args with
  | .ok o => run o
  | .error r => r

end Request

/-- How the program ends. -/
structure Finish where
  exitCode : Nat
  output : String
  /-- The messages other than the trace. -/
  complaints : List String
  /-- What is shown of the trace. -/
  trace : List Event
  deriving DecidableEq

namespace Finish

/-- The end of a run that did nothing but write a text. -/
def ofText (text : String) : Finish := ⟨0, text, [], []⟩

/-- The end of a run with arguments that cannot be understood. -/
def ofMisuse (complaints : List String) : Finish := ⟨2, "", complaints, []⟩

/-- The end of a run whose script file cannot be read. -/
def ofMissing (path : String) : Finish :=
  ⟨1, "",
    ["Failed to read the input file '" ++ path ++ "'. Perhaps this file does not exist?"], []⟩

/-- What is said about input that is not well-formed UTF-8. -/
def notText : String := "stream did not contain valid UTF-8"

/-- What the program shows of a trace: all of it, but nothing unless trace output was asked for. -/
def shownTrace (d : Diagnostics) : List Event :=
  if d.verbosity = 0 then [] else d.trace.toList

/-- The lines of what is shown of the trace. -/
def traceLines (f : Finish) : List String := f.trace.map Event.terminalLine

/-- The end of a run that read an input. -/
def ofInput (result : Console × Console.Ending) : Finish :=
  let (console, ending) := result
  let trace := shownTrace console.session.diagnostics
  match ending with
  | .notText => ⟨2, console.output, [notText], trace⟩
  | .done => ⟨if console.failed = 0 then 0 else 1, console.output, [], trace⟩

end Finish

namespace Options

/-- Runs the calculator with the given options. -/
def run (o : Options) (stdin : ByteArray) (file? : String → Option ByteArray) : Finish :=
  let session := Session.start o.verbosity
  match o.contents? with
  | none => .ofInput (runInput session 0 stdin true)
  | some contents =>
    if o.isFile then
      match (file? contents).bind String.fromUTF8? with
      | none => .ofMissing contents
      | some script => .ofInput (runInput session 0 script.toUTF8 false)
    else .ofInput (runInput session 0 contents.toUTF8 false)

end Options

namespace Request

/-- The texts about the arguments. The library that reads them words these texts, and nothing here
depends on the wording. -/
structure Texts where
  /-- How to use the program. -/
  usage : String
  /-- What is said about arguments that cannot be understood. -/
  misuse : List String

/-- Does what is asked for. -/
def perform (r : Request) (texts : Texts) (stdin : ByteArray)
    (file? : String → Option ByteArray) : Finish :=
  match r with
  | help => .ofText texts.usage
  | version => .ofText ("abacus " ++ LineCalc.version ++ "\n")
  | misuse => .ofMisuse texts.misuse
  | run o => o.run stdin file?

end Request

end LineCalc
