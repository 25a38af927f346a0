import Kaleidoscope.CommandLine.Arguments
import Kaleidoscope.CommandLine.Directory
import Kaleidoscope.Toplevel.Printer
import Kaleidoscope.Toplevel.Run

set_option autoImplicit false

/- A run reads one input, from a file or from standard input, and prints its forms or its tokens.
Standard output may fail, standard error is taken to take everything. -/

namespace Kaleidoscope.CommandLine

/-- How a run ends. -/
inductive Ending where
  | exit (code : UInt8)
  | panic
  deriving DecidableEq

/-- What a run leaves behind. -/
structure Report where
  ending : Ending
  output : String
  errors : String
  deriving DecidableEq

/-- What the system sees of the ending. -/
def Report.exitCode (report : Report) : UInt8 :=
  match report.ending with
  | .exit code => code
  | .panic => 101

def versionText : String := "kaleidoscope 0.1.0\n"

def usageText : String := "Usage: kaleidoscope [OPTIONS] [FILE]\n"

def helpText : String :=
  "Parses Kaleidoscope and prints every top-level form\n\n" ++ usageText ++
  "\nArguments:\n" ++
  "  [FILE]  File to parse, stdin when omitted\n" ++
  "\nOptions:\n" ++
  "      --tokens           Print the token stream and exit\n" ++
  "      --operators        Print the operator table after the input is exhausted\n" ++
  "      --no-prompt        Never show a prompt, even on a terminal\n" ++
  "      --prompt <PROMPT>  Prompt shown before each form when reading from a terminal" ++
  " [default: \"ready> \"]\n" ++
  "  -h, --help             Print help\n" ++
  "  -V, --version          Print version\n"

/-- The report of arguments that do not lead to a run. -/
def Stop.report : Stop → Report
  | usage error =>
    ⟨.exit 2, "", error.message ++ "\n\n" ++ usageText ++ "\nFor more information, try '--help'.\n"⟩
  | help => ⟨.exit 0, helpText, ""⟩
  | version => ⟨.exit 0, versionText, ""⟩

/-- The report of a file that cannot be opened for the given reason. -/
def unopened (path reason : String) : Report :=
  ⟨.exit 1, "", "Error: failed to open " ++ path ++ ": " ++ reason ++ "\n"⟩

/-- The line about an input that ended early. -/
def readErrorLine : Option ReadError → String
  | some error => "Error: input ended early: " ++ error.message ++ "\n"
  | none => ""

def summaryLine (summary : Summary) : String :=
  toString summary.definitions ++ " definitions, " ++ toString summary.declarations ++
    " externs, " ++ toString summary.expressions ++ " expressions, " ++
    toString summary.rejected ++ " rejected, " ++ toString summary.failures ++ " failures\n"

def operatorLines (table : OperatorTable) : List String :=
  table.entries.map fun entry =>
    String.singleton entry.symbol ++ " " ++ toString entry.precedence.toInt

/-- The lines about the operators in force at the end, if they are asked for. -/
def Settings.listing (settings : Settings) (table : OperatorTable) : List String :=
  if settings.listOperators then operatorLines table else []

/-- Prints lines, up to the first one that does not fit. Tells whether all of them did. -/
def printLines (output : Sink) : List String → Bool × Sink
  | [] => (true, output)
  | line :: lines =>
    match output.writeLine line with
    | (none, after) => printLines after lines
    | (some _, after) => (false, after)

/-- The report of a program that panics because it cannot print a line of a listing. -/
def panicked (output : Sink) (errors : String) : Report :=
  ⟨.panic, output.text, errors ++ "failed printing to stdout: " ++ output.complaint ++ "\n"⟩

/-- Lists the tokens of an input. -/
def tokenListing (output : Sink) (stream : TokenStream) : Report :=
  match printLines output (stream.toList.map Token.describe) with
  | (false, output) => panicked output ""
  | (true, output) =>
    { ending := .exit (if stream.failure.isSome then 1 else 0)
      output := output.text
      errors := readErrorLine stream.failure }

/-- The tokens of an opened input. -/
def Settings.stream (settings : Settings) (input : Input) : TokenStream :=
  .ofLexer (.ofInput input (settings.file.map displayName))

/-- The top level that prints the forms of an input to `output`. -/
def Settings.printing (settings : Settings) (output : Sink) (input : Input) (interactive : Bool) :
    Toplevel Printer :=
  .start (.start (settings.stream input) .builtin) ⟨output⟩ (settings.promptFor interactive)

/-- Prints the forms of an input. A line about a form that does not fit is a refusal, which the
summary counts; a line of the listing that does not fit is a panic. -/
def printForms (settings : Settings) (output : Sink) (input : Input) (interactive : Bool) :
    Report :=
  let top := settings.printing output input interactive
  let final := top.run
  let errors := top.prompt.getD "" ++ final.shown ++ summaryLine final.summary
  let failure := final.session.tokens.readError
  match printLines final.backend.sink (settings.listing final.session.operators) with
  | (false, output) => panicked output errors
  | (true, output) =>
    { ending := .exit (if failure.isSome || !final.summary.isClean then 1 else 0)
      output := output.text
      errors := errors ++ readErrorLine failure }

/-- Runs on an opened input, with `output` for standard output. -/
def Settings.run (settings : Settings) (output : Sink) (input : Input) (interactive : Bool) :
    Report :=
  if settings.listTokens then tokenListing output (settings.stream input)
  else printForms settings output input interactive

/-- A whole run, with the directory it runs in and the bytes of standard input, which is no
terminal. -/
def run (arguments : List String) (directory : Directory) (standardInput : List UInt8)
    (output : Sink := .unlimited) : Report :=
  match Settings.ofArguments arguments with
  | .error stop => stop.report
  | .ok settings =>
    match settings.file with
    | none => settings.run output (.ofBytes standardInput none) false
    | some path =>
      let system : FileSystem := ⟨directory, .devices standardInput⟩
      match system.openInput path with
      | .error error => unopened path error.message
      | .ok input => settings.run output input false

end Kaleidoscope.CommandLine
