import Kaleidoscope.Number.Printer
import Kaleidoscope.Position
import Kaleidoscope.Text.Quoted

set_option autoImplicit false

namespace Kaleidoscope

/-- What went wrong. -/
inductive Fault where
  /-- A token that no expression starts with. -/
  | noExpression (token : String)
  /-- A token in the place of another, with what was expected. -/
  | misplaced (token expectation : String)
  /-- A token that is no operator symbol. -/
  | noSymbol (token : String)
  | precedenceOutOfRange (precedence : Number)
  | wrongArity (symbol : Char) (expected received : Nat)
  | repeatedParameter (name : String)
  | tooDeep (limit : Nat)
  /-- The backend could not use the form. -/
  | backend (reason : String)
  deriving DecidableEq

namespace Fault

def title : Fault → String
  | noExpression _ => "UnexpectedToken"
  | misplaced _ _ => "UnexpectedTokenDetailed"
  | noSymbol _ => "InvalidOperator"
  | precedenceOutOfRange _ => "InvalidPrecedence"
  | wrongArity _ _ _ => "ArityMismatch"
  | repeatedParameter _ => "DuplicateParameter"
  | tooDeep _ => "NestingTooDeep"
  | backend _ => "Codegen"

/-- The plain message. -/
def message : Fault → String
  | noExpression token => "unexpected token: " ++ Text.quoteString token
  | misplaced token expectation =>
    "unexpected token (" ++ Text.quoteString expectation ++ "): " ++ Text.quoteString token
  | noSymbol token => "invalid operator symbol: " ++ Text.quoteString token
  | precedenceOutOfRange precedence =>
    "invalid precedence " ++ precedence.text ++ ": must be 1..100"
  | wrongArity symbol expected received =>
    "operator " ++ Text.quoteChar symbol ++ " expects " ++ toString expected ++
      " operands, received " ++ toString received
  | repeatedParameter name => "parameter " ++ Text.quoteString name ++ " declared twice"
  | tooDeep limit => "expression nested deeper than " ++ toString limit ++ " levels"
  | backend reason => "code generation failed: " ++ reason

/-- Advice for the author of the program. There is none about the backend. -/
def tip? : Fault → Option String
  | noExpression token => some ("Unknown token `" ++ token ++ "` when expecting an expression")
  | misplaced token expectation => some ("Unexpected token: `" ++ token ++ "`, " ++ expectation)
  | noSymbol token =>
    some ("`" ++ token ++ "` cannot be declared as an operator, expected a single symbol")
  | precedenceOutOfRange precedence =>
    some ("Invalid precedence `" ++ precedence.text ++ "`, must be 1..100")
  | wrongArity symbol expected received =>
    some ("Operator `" ++ String.singleton symbol ++ "` takes " ++ toString expected ++
      " operands, received " ++ toString received)
  | repeatedParameter name => some ("Parameter `" ++ name ++ "` is declared twice")
  | tooDeep limit =>
    some ("Expression nests deeper than " ++ toString limit ++ " levels, split it up")
  | backend _ => none

end Fault

structure Failure where
  fault : Fault
  position : Position
  deriving DecidableEq

namespace Failure

def message (failure : Failure) : String :=
  failure.fault.message ++ " at " ++ failure.position.text

/-- The two lines that report a failure. -/
def report (failure : Failure) : String :=
  "Error: " ++ failure.fault.title ++ " (" ++
    failure.fault.tip?.getD failure.fault.message ++ ")\n-> " ++ failure.position.text

end Failure

/-- The report of an input that ended in the middle of a form. -/
def unfinishedReport : String := "Error: unexpected end of input"

/-- The report of a form that could not be used; without a failure the input ended in it. -/
def failureReport : Option Failure → String
  | some failure => failure.report
  | none => unfinishedReport

end Kaleidoscope
