import Kaleidoscope.Token.Lexer

set_option autoImplicit false

/- The first token is the current one; behind the last one the end of the input is current for ever.
-/

namespace Kaleidoscope

structure TokenStream where
  /-- The current token and all that follow it, without the end of the input. -/
  ahead : List Token
  /-- Where the input ends. -/
  ending : Position
  /-- What the input ends with, if it ends early. -/
  failure : Option ReadError
  deriving DecidableEq

namespace TokenStream

/-- All tokens that a lexer has still to give. Every one of them takes at least one character, so
one more step than there are characters meets the end. -/
def ofLexer (lexer : Lexer) : TokenStream :=
  let (tokens, final) := lexer.takeTokens (lexer.remaining + 1)
  ⟨tokens, final.position, final.failure⟩

/-- The token being looked at. -/
def current (stream : TokenStream) : Token :=
  stream.ahead.headD (.endAt stream.ending)

/-- The stream behind its current token. -/
def advance (stream : TokenStream) : TokenStream :=
  { stream with ahead := stream.ahead.tail }

/-- Whether every token is used up. -/
def atEnd (stream : TokenStream) : Bool :=
  stream.ahead.isEmpty

/-- The failure that ended the input early. It is known once the end is current. -/
def readError (stream : TokenStream) : Option ReadError :=
  if stream.atEnd then stream.failure else none

/-- All tokens, with the end of the input as the last. -/
def toList (stream : TokenStream) : List Token :=
  stream.ahead ++ [.endAt stream.ending]

@[simp]
theorem current_nil (ending : Position) (failure : Option ReadError) :
    (TokenStream.mk [] ending failure).current = .endAt ending := rfl

@[simp]
theorem current_cons (token : Token) (ahead : List Token) (ending : Position)
    (failure : Option ReadError) :
    (TokenStream.mk (token :: ahead) ending failure).current = token := rfl

@[simp]
theorem advance_ahead (stream : TokenStream) : stream.advance.ahead = stream.ahead.tail := rfl

@[simp]
theorem advance_ending (stream : TokenStream) : stream.advance.ending = stream.ending := rfl

end TokenStream

/-- All tokens of an input, the end included. -/
def Input.tokens (input : Input) (source : Option String) : List Token :=
  (TokenStream.ofLexer (.ofInput input source)).toList

end Kaleidoscope
