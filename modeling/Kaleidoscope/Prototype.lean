import Kaleidoscope.Expr.Printer

set_option autoImplicit false

/- The function behind an operator is named `unary` or `binary` followed by the operator's symbol,
so the symbol is the last character of the name. -/

namespace Kaleidoscope

structure Prototype where
  name : String
  parameters : List String
  isOperator : Bool
  /-- How tightly a binary operator binds; zero for everything else. -/
  precedence : UInt32
  deriving DecidableEq

namespace Prototype

/-- The prototype of an ordinary function. -/
def function (name : String) (parameters : List String) : Prototype :=
  ⟨name, parameters, false, 0⟩

/-- The name of the function that wraps an expression of the top level. -/
def anonymousName : String := "__anon_expr"

def anonymous : Prototype :=
  function anonymousName []

def unary (symbol : Char) (parameters : List String) : Prototype :=
  ⟨"unary" ++ String.singleton symbol, parameters, true, 0⟩

def binary (symbol : Char) (parameters : List String) (precedence : UInt32) : Prototype :=
  ⟨"binary" ++ String.singleton symbol, parameters, true, precedence⟩

def arity (prototype : Prototype) : Nat :=
  prototype.parameters.length

def isUnary (prototype : Prototype) : Bool :=
  prototype.isOperator && prototype.arity == 1

def isBinary (prototype : Prototype) : Bool :=
  prototype.isOperator && prototype.arity == 2

def isAnonymous (prototype : Prototype) : Bool :=
  prototype.name == anonymousName

/-- The symbol of an operator. -/
def symbol? (prototype : Prototype) : Option Char :=
  if prototype.isOperator then prototype.name.toList.getLast? else none

def binaryPrecedence? (prototype : Prototype) : Option UInt32 :=
  if prototype.isBinary then some prototype.precedence else none

def text (prototype : Prototype) : String :=
  let signature := prototype.name ++ "(" ++ " ".intercalate prototype.parameters ++ ")"
  match prototype.binaryPrecedence? with
  | some precedence => signature ++ " [precedence " ++ toString precedence.toNat ++ "]"
  | none => signature

end Prototype

structure Definition where
  prototype : Prototype
  body : Expr

namespace Definition

/-- An expression of the top level as the body of a function without parameters. -/
def ofExpression (body : Expr) : Definition :=
  ⟨.anonymous, body⟩

def text (definition : Definition) : String :=
  "(def " ++ definition.prototype.text ++ " " ++ definition.body.text ++ ")"

end Definition

end Kaleidoscope
