import Kaleidoscope.Failure
import Kaleidoscope.OperatorTable
import Kaleidoscope.Token.Stream

set_option autoImplicit false

/- The state in which one input is read: its tokens, the operators in force, and the number of
operands that are open. -/

namespace Kaleidoscope

/-- How many operands may be open at the same time. -/
def nestingLimit : Nat := 256

structure Session where
  tokens : TokenStream
  operators : OperatorTable
  /-- The operands that are open, the innermost included. -/
  depth : Nat
  /-- How many operands may be open; without a limit, any number. -/
  limit : Option Nat
  deriving DecidableEq

/-- What a reading step comes to. -/
inductive Outcome (α : Type) where
  | parsed (value : α)
  /-- The input ended before the construct was complete. -/
  | incomplete
  | failed (failure : Failure)
  deriving DecidableEq

/-- A reading step. -/
def Parser (α : Type) : Type :=
  Session → Outcome α × Session

namespace Parser

variable {α β : Type}

def pure (value : α) : Parser α :=
  fun session => (.parsed value, session)

/-- Goes on with the value of the first step; any other outcome ends both. -/
def bind (first : Parser α) (next : α → Parser β) : Parser β :=
  fun session =>
    match first session with
    | (.parsed value, after) => next value after
    | (.incomplete, after) => (.incomplete, after)
    | (.failed failure, after) => (.failed failure, after)

instance : Monad Parser where
  pure := Parser.pure
  bind := Parser.bind

end Parser

namespace Session

/-- A session at the start of an input. -/
def start (tokens : TokenStream) (operators : OperatorTable) : Session :=
  ⟨tokens, operators, 0, some nestingLimit⟩

/-- The token being looked at. -/
def current (session : Session) : Token :=
  session.tokens.current

def position (session : Session) : Position :=
  session.current.position

def atEnd (session : Session) : Bool :=
  session.current.isEnd

/-- Moves past the current token. -/
def advance (session : Session) : Session :=
  { session with tokens := session.tokens.advance }

/-- The number of tokens before the end of the input. -/
def remaining (session : Session) : Nat :=
  session.tokens.ahead.length

/-- Takes the current token. -/
def take : Parser Token :=
  fun session => (.parsed session.current, session.advance)

/-- Whether the current token is the given character. -/
def sees (session : Session) (symbol : Char) : Bool :=
  session.current.kind == .symbol symbol

/-- The precedence of the current token as a binary operator. -/
def currentPrecedence (session : Session) : Int32 :=
  session.operators.precedenceOf session.current.kind

/-- A failure at the current token. -/
def failure (session : Session) (fault : Fault) : Failure :=
  ⟨fault, session.position⟩

/-- The current token is not the one expected. At the end of the input that is no failure. -/
def unexpected {α : Type} (expectation : String) : Parser α :=
  fun session =>
    if session.atEnd then (.incomplete, session)
    else (.failed (session.failure (.misplaced session.current.text expectation)), session)

/-- Takes the current token if it is of the given kind. -/
def expect (kind : Token.Kind) (expectation : String) : Parser Token :=
  fun session =>
    if session.current.kind.agrees kind then take session else unexpected expectation session

/-- Takes the current token if it is of the given kind; the failure names the kind. -/
def expectKind (kind : Token.Kind) : Parser Token :=
  expect kind ("expected `" ++ kind.text ++ "`")

/-- Takes an identifier. -/
def expectName (expectation : String) : Parser String :=
  fun session =>
    match session.current.kind with
    | .identifier name => (.parsed name, session.advance)
    | _ => unexpected expectation session

/-- Where an expression should start there is none. At the end of the input that is no failure. -/
def noExpression {α : Type} : Parser α :=
  fun session =>
    if session.atEnd then (.incomplete, session)
    else (.failed (session.failure (.noExpression session.current.text)), session)

/-- Opens one more operand, unless the limit is reached. -/
def openOperand (session : Session) : Except Failure Session :=
  match session.limit with
  | some limit =>
    if limit ≤ session.depth then .error (session.failure (.tooDeep limit))
    else .ok { session with depth := session.depth + 1 }
  | none => .ok { session with depth := session.depth + 1 }

/-- Closes the innermost operand. -/
def closeOperand (session : Session) : Session :=
  { session with depth := session.depth - 1 }

@[simp]
theorem advance_operators (session : Session) : session.advance.operators = session.operators := rfl

@[simp]
theorem advance_depth (session : Session) : session.advance.depth = session.depth := rfl

@[simp]
theorem advance_limit (session : Session) : session.advance.limit = session.limit := rfl

@[simp]
theorem advance_ahead (session : Session) :
    session.advance.tokens.ahead = session.tokens.ahead.tail := rfl

theorem remaining_advance_le (session : Session) :
    session.advance.remaining ≤ session.remaining := by
  simp [remaining]

theorem remaining_advance {session : Session} (more : session.current.kind ≠ .endOfInput) :
    session.advance.remaining + 1 = session.remaining := by
  rcases session with ⟨⟨_ | ⟨token, ahead⟩, ending, failure⟩, operators, depth, limit⟩
  · exact absurd rfl more
  · rfl

/-- Opening an operand changes nothing but the depth. -/
theorem eq_of_openOperand {session deeper : Session} (opened : session.openOperand = .ok deeper) :
    deeper = { session with depth := session.depth + 1 } := by
  unfold openOperand at opened
  split at opened
  · split at opened
    · cases opened
    · exact (Except.ok.inj opened).symm
  · exact (Except.ok.inj opened).symm

end Session

end Kaleidoscope
