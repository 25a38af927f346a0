import Kaleidoscope.Input
import Kaleidoscope.Number.Reader
import Kaleidoscope.Token.Basic

set_option autoImplicit false

/- Input is read one line at a time, and no token goes across a line feed. -/

namespace Kaleidoscope

namespace Text

/-- The number of bytes that the characters take in UTF-8. -/
def byteLength : List Char → Nat
  | [] => 0
  | c :: rest => c.utf8Size + byteLength rest

/-- The characters that start at or after the given byte. -/
def dropBytes : Nat → List Char → List Char
  | 0, row => row
  | _ + 1, [] => []
  | count + 1, c :: rest => dropBytes (count + 1 - c.utf8Size) rest

def isBlank (c : Char) : Bool :=
  c == ' ' || c == '\t' || c == '\r' || c == '\n'

def isNumeral (c : Char) : Bool :=
  c.isDigit || c == '.'

end Text

/-- A kind of pieces: the character that starts one, those that may follow it, and the token that
the piece is, unless it is passed over. -/
structure Pattern where
  first : Char → Bool
  later : Char → Bool
  kind? : List Char → Option Token.Kind

namespace Pattern

/-- The longest piece of this kind at the start of a row. -/
def match? (pattern : Pattern) : List Char → Option (List Char)
  | [] => none
  | c :: rest => if pattern.first c then some (c :: rest.takeWhile pattern.later) else none

/-- The patterns in the order in which they are tried: blanks, a comment, a word, a numeral. -/
def all : List Pattern :=
  [⟨Text.isBlank, Text.isBlank, fun _ => none⟩,
    ⟨(· == '#'), (· != '\n'), fun _ => none⟩,
    ⟨Char.isAlpha, Char.isAlphanum, fun word => some (.ofWord (String.ofList word))⟩,
    ⟨Text.isNumeral, Text.isNumeral, fun numeral => some (.number (.ofNumeral numeral))⟩]

end Pattern

/-- A piece at the start of a row: its bytes, its characters, and the token that it is. -/
structure Piece where
  bytes : Nat
  characters : Nat
  kind? : Option Token.Kind

namespace Piece

/-- The piece that a row of characters is. -/
def ofRow (row : List Char) (kind? : Option Token.Kind) : Piece :=
  ⟨Text.byteLength row, row.length, kind?⟩

/-- The piece at the start of a row. A character that no pattern takes is one by itself. -/
def read? (row : List Char) : Option Piece :=
  match Pattern.all.findSome? fun pattern =>
      (pattern.match? row).map fun piece => ofRow piece (pattern.kind? piece) with
  | some piece => some piece
  | none => row.head?.map fun c => ⟨c.utf8Size, 1, some (.symbol c)⟩

end Piece

/-- The state of reading: the line at hand, how far it is used up, and the lines still to come. -/
structure Lexer where
  source : String
  /-- Lines not yet read. -/
  pending : List (List Char)
  /-- What follows the last pending line: the end of the input, or a failure. -/
  failure : Option ReadError
  line : List Char
  /-- Bytes of the line that are used up. -/
  offset : Nat
  column : UInt32
  lineNumber : UInt32
  /-- Whether the end of the input has been met. -/
  exhausted : Bool
  deriving DecidableEq

namespace Lexer

/-- The name of a source that has none of its own. -/
def defaultSource : String := "shell"

def ofInput (input : Input) (source : Option String) : Lexer where
  source := source.getD defaultSource
  pending := input.lines
  failure := input.failure
  line := []
  offset := 0
  column := 1
  lineNumber := 0
  exhausted := false

/-- Where the lexer stands. Before the first line it stands at the start of that line. -/
def position (lexer : Lexer) : Position :=
  ⟨lexer.source, if lexer.lineNumber = 0 then 1 else lexer.lineNumber, lexer.column⟩

/-- Whether the end of the input has been met and nothing of the line is left. -/
def atEnd (lexer : Lexer) : Bool :=
  lexer.exhausted && decide (Text.byteLength lexer.line ≤ lexer.offset)

/-- The failure that ended the input early. It is known once the end has been met. -/
def readError (lexer : Lexer) : Option ReadError :=
  if lexer.exhausted then lexer.failure else none

/-- What is left of the line. -/
def rest (lexer : Lexer) : List Char :=
  Text.dropBytes lexer.offset lexer.line

/-- Moves past `bytes` bytes of the line, which hold `characters` characters. -/
def advance (lexer : Lexer) (bytes characters : Nat) : Lexer :=
  { lexer with
    offset := lexer.offset + bytes
    column := lexer.column + UInt32.ofNat characters }

def startLine (lexer : Lexer) (line : List Char) : Lexer :=
  { lexer with line := line, offset := 0, column := 1, lineNumber := lexer.lineNumber + 1 }

/-- What could go wrong in a turn. -/
inductive Slip where
  /-- The line is cut where no character starts. -/
  | boundary
  /-- More bytes are used up than the line has. -/
  | underflow
  /-- A piece is asked for where nothing is left. -/
  | empty
  deriving DecidableEq

/-- The rest of the line, if a character starts at the offset or the line ends there. -/
def slice (lexer : Lexer) : Except Slip (List Char) :=
  if String.Pos.Raw.isValid (String.ofList lexer.line) ⟨lexer.offset⟩ then .ok lexer.rest
  else .error .boundary

/-- The number of bytes left of the line. -/
def bytesLeft (lexer : Lexer) : Except Slip Nat :=
  if lexer.offset ≤ Text.byteLength lexer.line then
    .ok (Text.byteLength lexer.line - lexer.offset)
  else .error .underflow

/-- Asks for another line, and tells whether there is one. A failure uses up the line at hand. -/
def fillLine (lexer : Lexer) : Except Slip (Bool × Lexer) :=
  if lexer.exhausted then .ok (false, lexer)
  else
    match lexer.pending, lexer.failure with
    | line :: pending, _ => .ok (true, { lexer.startLine line with pending := pending })
    | [], none => .ok (false, { lexer with exhausted := true })
    | [], some _ => do
      let bytes ← lexer.bytesLeft
      let rest ← lexer.slice
      return (false, { lexer.advance bytes rest.length with exhausted := true })

/-- One turn: the token that it gives, if it gives one, and the lexer behind it. A turn with some of
the line left cuts one piece off it, and a turn with nothing left of it asks for another line. -/
def turn (lexer : Lexer) : Except Slip (Option Token × Lexer) :=
  if Text.byteLength lexer.line ≤ lexer.offset then do
    let (more, after) ← lexer.fillLine
    return (if more then none else some (.endAt after.position), after)
  else do
    let rest ← lexer.slice
    match Piece.read? rest with
    | none => throw .empty
    | some piece =>
      let after := lexer.advance piece.bytes piece.characters
      return (piece.kind?.map fun kind => ⟨kind, ⟨lexer.position, after.position⟩⟩, after)

/-- Turns until one gives a token, at most `count` of them. -/
def turns : (count : Nat) → Lexer → Except Slip (Option Token × Lexer)
  | 0, lexer => .ok (none, lexer)
  | count + 1, lexer =>
    match lexer.turn with
    | .ok (none, after) => turns count after
    | outcome => outcome

/-- The number of characters still to be read. -/
def remaining (lexer : Lexer) : Nat :=
  lexer.rest.length + lexer.pending.flatten.length

/-- The next token. Once the input is used up every further one is the same end of input. A turn
that gives no token takes a character or a line, so there are turns enough, and between tokens no
turn slips: see `Settled.turns_eq`. -/
def next (lexer : Lexer) : Token × Lexer :=
  match lexer.turns (lexer.remaining + lexer.pending.length + 1) with
  | .ok (some token, after) => (token, after)
  | _ => (.endAt lexer.position, lexer)

/-- The tokens before the end of the input, at most `count` of them, and the lexer after that. -/
def takeTokens : (count : Nat) → Lexer → List Token × Lexer
  | 0, lexer => ([], lexer)
  | count + 1, lexer =>
    match lexer.next with
    | (token, after) =>
      if token.isEnd then ([], after)
      else match takeTokens count after with
        | (tokens, final) => (token :: tokens, final)

end Lexer

end Kaleidoscope
