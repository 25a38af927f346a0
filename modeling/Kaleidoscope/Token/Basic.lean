import Kaleidoscope.Number.Printer
import Kaleidoscope.Position
import Kaleidoscope.Text.Quoted

set_option autoImplicit false

namespace Kaleidoscope

/-- The reserved words. -/
inductive Keyword where
  | defWord
  | externWord
  | ifWord
  | thenWord
  | elseWord
  | forWord
  | inWord
  | binaryWord
  | unaryWord
  | varWord
  deriving DecidableEq

namespace Keyword

def all : List Keyword :=
  [defWord, externWord, ifWord, thenWord, elseWord, forWord, inWord, binaryWord, unaryWord, varWord]

def spelling : Keyword → String
  | defWord => "def"
  | externWord => "extern"
  | ifWord => "if"
  | thenWord => "then"
  | elseWord => "else"
  | forWord => "for"
  | inWord => "in"
  | binaryWord => "binary"
  | unaryWord => "unary"
  | varWord => "var"

/-- The name of the word's class of tokens in listings. -/
def title : Keyword → String
  | defWord => "Def"
  | externWord => "Extern"
  | ifWord => "If"
  | thenWord => "Then"
  | elseWord => "Else"
  | forWord => "For"
  | inWord => "In"
  | binaryWord => "Binary"
  | unaryWord => "Unary"
  | varWord => "Var"

def ofSpelling? (word : String) : Option Keyword :=
  all.find? fun keyword => keyword.spelling == word

end Keyword

namespace Token

/-- What a token is, apart from where it stands. -/
inductive Kind where
  | endOfInput
  | keyword (word : Keyword)
  | identifier (name : String)
  | number (value : Number)
  | symbol (character : Char)
  deriving DecidableEq

namespace Kind

/-- The kind of a run of letters and digits that starts with a letter. -/
def ofWord (word : String) : Kind :=
  match Keyword.ofSpelling? word with
  | some reserved => .keyword reserved
  | none => .identifier word

/-- Whether two kinds match. Numbers match by their numeric value. -/
def agrees : Kind → Kind → Bool
  | number left, number right => left.equals right
  | left, right => left == right

/-- The token as it is quoted in messages. -/
def text : Kind → String
  | endOfInput => "EOF"
  | keyword word => word.spelling
  | identifier name => name
  | number value => value.text
  | symbol character => String.singleton character

/-- The token with its class, as listings show it. -/
def describe : Kind → String
  | endOfInput => "EOF"
  | keyword word => word.title
  | identifier name => "Identifier (" ++ name ++ ")"
  | number value => "Number (" ++ value.text ++ ")"
  | symbol character => "Char (" ++ Text.quoteChar character ++ ")"

end Kind

end Token

structure Token where
  kind : Token.Kind
  span : Span
  deriving DecidableEq

namespace Token

def position (token : Token) : Position :=
  token.span.start

def isEnd (token : Token) : Bool :=
  token.kind == .endOfInput

/-- The end of the input at a position. -/
def endAt (position : Position) : Token :=
  ⟨.endOfInput, ⟨position, position⟩⟩

def text (token : Token) : String :=
  token.kind.text

/-- One line of a token listing. -/
def describe (token : Token) : String :=
  token.position.text ++ " " ++ token.kind.describe

@[simp]
theorem isEnd_iff (token : Token) : token.isEnd = true ↔ token.kind = .endOfInput := by
  simp [isEnd]

@[simp]
theorem endAt_kind (position : Position) : (endAt position).kind = .endOfInput := rfl

@[simp]
theorem endAt_position (position : Position) : (endAt position).position = position := rfl

end Token

end Kaleidoscope
