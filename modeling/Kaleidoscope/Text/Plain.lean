set_option autoImplicit false

/- Text that may hold anything is made plain before it is written where no terminal reads it:
control characters other than blanks and control sequences of a terminal are left out. -/

namespace Kaleidoscope.Text

/-- Whether the byte lies between two bytes, both included. -/
def isBetween (first last byte : UInt8) : Bool :=
  decide (first ≤ byte) && decide (byte ≤ last)

/-- A control sequence that has started and not ended, told by what can end it. -/
inductive ControlSequence where
  /-- The escape character alone. -/
  | escape
  /-- An escape with intermediate bytes, which one more byte ends. -/
  | shortEscape
  /-- Parameters and intermediate bytes after `[`, ended by a letter or its like. -/
  | control
  /-- The start of a device control string, after `P`. -/
  | device
  /-- Parameters of a device control string. -/
  | deviceParameters
  /-- Intermediate bytes of a device control string. -/
  | deviceIntermediate
  /-- A string, which a string terminator of one byte ends. -/
  | string
  /-- A command for the operating system, after `]`, which a bell ends. -/
  | command
  deriving DecidableEq

namespace ControlSequence

/-- The sequence that a byte after the escape character starts; most bytes end the escape. -/
def ofFinal? (byte : UInt8) : Option ControlSequence :=
  if byte = 0x5B then some control
  else if byte = 0x5D then some command
  else if byte = 0x50 then some device
  else if byte = 0x58 ∨ byte = 0x5E ∨ byte = 0x5F then some string
  else none

/-- The sequence after one more byte that is not special in every sequence. -/
def continue? (sequence : ControlSequence) (byte : UInt8) : Option ControlSequence :=
  match sequence with
  | escape =>
    if isBetween 0x20 0x2F byte then some shortEscape
    else if isBetween 0x30 0x7E byte then ofFinal? byte
    else some escape
  | shortEscape => if isBetween 0x30 0x7E byte then none else some shortEscape
  | control => if isBetween 0x40 0x7E byte then none else some control
  | device =>
    if isBetween 0x20 0x2F byte then some deviceIntermediate
    else if isBetween 0x30 0x3F byte then some deviceParameters
    else if isBetween 0x40 0x7E byte then some string
    else some device
  | deviceParameters =>
    if isBetween 0x20 0x2F byte then some deviceIntermediate
    else if isBetween 0x3C 0x7E byte then some string
    else some deviceParameters
  | deviceIntermediate =>
    if isBetween 0x30 0x7E byte then some string else some deviceIntermediate
  | string => if byte = 0x9C then none else some string
  | command => if byte = 0x07 then none else some command

/-- The sequence after one more byte, if the byte does not end it. Two controls cancel every
sequence, and the escape character starts a new one. -/
def next? (sequence : ControlSequence) (byte : UInt8) : Option ControlSequence :=
  if byte = 0x18 ∨ byte = 0x1A then none
  else if byte = 0x1B then some escape
  else sequence.continue? byte

/-- The sequence after one more character. What is left of a character whose bytes end the sequence
is lost with it. -/
def nextChar? (sequence : ControlSequence) (c : Char) : Option ControlSequence :=
  (String.utf8EncodeChar c).foldlM next? sequence

/-- Whether control characters inside the sequence act at once, so that blanks are seen. -/
def obeysControls : ControlSequence → Bool
  | escape => true
  | shortEscape => true
  | control => true
  | _ => false

end ControlSequence

/-- The control characters that only move to another place. -/
def isBlankControl (c : Char) : Bool :=
  c == '\t' || c == '\n' || c == '\x0c' || c == '\r'

/-- Whether the character is seen outside of control sequences. -/
def isShown (c : Char) : Bool :=
  (decide (' ' ≤ c) && c != '\x7f') || isBlankControl c

/-- How the next character is taken. -/
inductive Display where
  | text
  /-- As part of a sequence. -/
  | sequence (unfinished : ControlSequence)
  /-- As text after a blank inside a sequence, which goes on after the next control character. -/
  | interruption (unfinished : ControlSequence)
  deriving DecidableEq

namespace Display

/-- The display after a part of a sequence, or after its end. -/
def ofSequence? : Option ControlSequence → Display
  | some unfinished => sequence unfinished
  | none => text

def shows : Display → Char → Bool
  | text, c => isShown c
  | sequence unfinished, c => unfinished.obeysControls && isBlankControl c
  | interruption _, c => isShown c

def next : Display → Char → Display
  | text, c => if c = '\x1b' then sequence .escape else text
  | sequence unfinished, c =>
    if unfinished.obeysControls && isBlankControl c then interruption unfinished
    else ofSequence? (unfinished.nextChar? c)
  | interruption unfinished, c =>
    if '\x7f' < c then text
    else if isShown c then interruption unfinished
    else ofSequence? (unfinished.nextChar? c)

/-- The characters that are seen. -/
def shown (display : Display) : List Char → List Char
  | [] => []
  | c :: rest =>
    if display.shows c then c :: (display.next c).shown rest else (display.next c).shown rest

end Display

/-- The text without its control characters and control sequences. -/
def plain (text : String) : String :=
  String.ofList (Display.text.shown text.toList)

end Kaleidoscope.Text
