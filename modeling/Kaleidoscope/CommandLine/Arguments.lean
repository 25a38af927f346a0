import Kaleidoscope.Text.Plain

set_option autoImplicit false

/- A file or the value of an option is checked only once the next option or the end is reached, so
an argument that is no option at all is reported first. -/

namespace Kaleidoscope.CommandLine

/-- What the program is asked to do. -/
structure Settings where
  /-- The file to read; without one, standard input. -/
  file : Option String
  /-- List the tokens and nothing else. -/
  listTokens : Bool
  /-- List the operators at the end. -/
  listOperators : Bool
  /-- Never show a prompt. -/
  noPrompt : Bool
  prompt : Option String
  deriving DecidableEq

/-- The prompt of a terminal that asks for no other. -/
def defaultPrompt : String := "ready> "

namespace Settings

def initial : Settings := ⟨none, false, false, false, none⟩

/-- The prompt to show, which only a terminal gets. -/
def promptFor (settings : Settings) (interactive : Bool) : Option String :=
  if interactive && !settings.noPrompt then some (settings.prompt.getD defaultPrompt) else none

end Settings

/-- What is wrong with the arguments. -/
inductive UsageError where
  | unexpectedArgument (argument : String)
  | unexpectedValue (value option : String)
  | missingValue (option : String)
  | repeatedOption (option : String)
  deriving DecidableEq

/-- The message, in which the text of an argument is made plain. -/
def UsageError.message : UsageError → String
  | unexpectedArgument argument =>
    "error: unexpected argument '" ++ Text.plain argument ++ "' found"
  | unexpectedValue value option =>
    "error: unexpected value '" ++ Text.plain value ++ "' for '" ++ option ++
      "' found; no more were expected"
  | missingValue option =>
    "error: a value is required for '" ++ option ++ "' but none was supplied"
  | repeatedOption option =>
    "error: the argument '" ++ option ++ "' cannot be used multiple times"

/-- Why the arguments do not lead to a run. -/
inductive Stop where
  | usage (error : UsageError)
  | help
  | version
  deriving DecidableEq

/-- An option without a value. -/
inductive Switch where
  | listTokens
  | listOperators
  | noPrompt
  | help
  | version
  deriving DecidableEq

namespace Switch

def all : List Switch := [listTokens, listOperators, noPrompt, help, version]

def name : Switch → String
  | listTokens => "tokens"
  | listOperators => "operators"
  | noPrompt => "no-prompt"
  | help => "help"
  | version => "version"

def ofName? (name : String) : Option Switch :=
  all.find? fun switch => switch.name == name

def ofLetter? : Char → Option Switch
  | 'h' => some help
  | 'V' => some version
  | _ => none

/-- The option as messages show it. -/
def shown (switch : Switch) : String := "--" ++ switch.name

def isSet (switch : Switch) (settings : Settings) : Bool :=
  match switch with
  | listTokens => settings.listTokens
  | listOperators => settings.listOperators
  | noPrompt => settings.noPrompt
  | help => false
  | version => false

/-- The settings with the switch on. Help and version end the reading of arguments. -/
def turnOn (switch : Switch) (settings : Settings) : Except Stop Settings :=
  if switch.isSet settings then .error (.usage (.repeatedOption switch.shown))
  else match switch with
    | listTokens => .ok { settings with listTokens := true }
    | listOperators => .ok { settings with listOperators := true }
    | noPrompt => .ok { settings with noPrompt := true }
    | help => .error .help
    | version => .error .version

end Switch

/-- What has been read and not yet been checked. -/
inductive Pending where
  | nothing
  | prompt (value : Option String)
  | file (path : String)
  deriving DecidableEq

/-- The option that takes a value, as messages show it. -/
def shownPrompt : String := "--prompt <PROMPT>"

/-- The argument that is no option, as messages show it. -/
def shownFile : String := "[FILE]"

/-- The state of reading arguments. -/
structure Reading where
  settings : Settings
  pending : Pending
  /-- Whether a file has been given. -/
  fileGiven : Bool
  /-- Whether the options have ended. -/
  optionsEnded : Bool
  deriving DecidableEq

namespace Reading

def initial : Reading := ⟨.initial, .nothing, false, false⟩

def setPrompt (settings : Settings) (value : String) : Except Stop Settings :=
  if settings.prompt.isSome then .error (.usage (.repeatedOption shownPrompt))
  else .ok { settings with prompt := some value }

/-- Checks what is pending and makes it part of the settings. -/
def settle (reading : Reading) : Except Stop Settings :=
  match reading.pending with
  | .nothing => .ok reading.settings
  | .prompt none => .error (.usage (.missingValue shownPrompt))
  | .prompt (some value) => setPrompt reading.settings value
  | .file path =>
    if path.isEmpty then .error (.usage (.missingValue shownFile))
    else .ok { reading.settings with file := some path }

def readFile (reading : Reading) (argument : String) : Except Stop Reading :=
  if reading.fileGiven then .error (.usage (.unexpectedArgument argument))
  else do
    let settings ← reading.settle
    return { reading with settings := settings, pending := .file argument, fileGiven := true }

def readSwitch (reading : Reading) (switch : Switch) : Except Stop Reading := do
  let settings ← switch.turnOn (← reading.settle)
  return { reading with settings := settings, pending := .nothing }

/-- The option that takes a value, given with its value or before it. -/
def readPrompt (reading : Reading) (value : Option String) : Except Stop Reading := do
  let settings ← reading.settle
  match value with
  | none => return { reading with settings := settings, pending := .prompt none }
  | some value =>
    return { reading with settings := ← setPrompt settings value, pending := .nothing }

/-- An option that starts with two dashes, without them. -/
def readLong (reading : Reading) (argument : List Char) : Except Stop Reading :=
  let name := String.ofList (argument.takeWhile (· != '='))
  let value : Option String :=
    match argument.dropWhile (· != '=') with
    | [] => none
    | _ :: rest => some (String.ofList rest)
  if name = "prompt" then reading.readPrompt value
  else match Switch.ofName? name, value with
    | some switch, none => reading.readSwitch switch
    | some switch, some value => .error (.usage (.unexpectedValue value switch.shown))
    | none, _ => .error (.usage (.unexpectedArgument ("--" ++ name)))

/-- An option of one letter. No such option leaves anything to be read after it. -/
def readShort (reading : Reading) (letter : Char) : Except Stop Reading :=
  match Switch.ofLetter? letter with
  | some switch => reading.readSwitch switch
  | none => .error (.usage (.unexpectedArgument (String.ofList ['-', letter])))

def readArgument (reading : Reading) (argument : String) : Except Stop Reading :=
  if reading.optionsEnded then reading.readFile argument
  else
    match argument.toList with
    | ['-', '-'] => .ok { reading with optionsEnded := true }
    | '-' :: '-' :: rest => reading.readLong rest
    | '-' :: letter :: _ => reading.readShort letter
    | _ =>
      if reading.pending = .prompt none then
        .ok { reading with pending := .prompt (some argument) }
      else reading.readFile argument

end Reading

/-- Reads the arguments of the command line. -/
def Settings.ofArguments (arguments : List String) : Except Stop Settings := do
  (← arguments.foldlM Reading.readArgument Reading.initial).settle

end Kaleidoscope.CommandLine
