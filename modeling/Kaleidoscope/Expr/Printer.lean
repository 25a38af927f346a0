import Kaleidoscope.Expr.Basic
import Kaleidoscope.Number.Printer

set_option autoImplicit false

namespace Kaleidoscope.Expr

mutual

/-- The written form of an expression. -/
def text : Expr → String
  | number value => value.text
  | reference name => name
  | unary symbol operand => "(unary" ++ String.singleton symbol ++ " " ++ operand.text ++ ")"
  | binary symbol left right =>
    "(" ++ String.singleton symbol ++ " " ++ left.text ++ " " ++ right.text ++ ")"
  | call callee arguments => "(call " ++ callee ++ textEach arguments ++ ")"
  | conditional condition consequent alternative =>
    "(if " ++ condition.text ++ " " ++ consequent.text ++ " " ++ alternative.text ++ ")"
  | loop counter start stop step body =>
    "(for " ++ counter ++ " " ++ start.text ++ " " ++ stop.text ++ textOptional step ++ " " ++
      body.text ++ ")"
  | scope bindings body => "(var (" ++ textBindings bindings ++ ") " ++ body.text ++ ")"

/-- Every expression of a list with a space in front of it. -/
def textEach : List Expr → String
  | [] => ""
  | expression :: rest => " " ++ expression.text ++ textEach rest

/-- An expression with a space in front of it, if there is one. -/
def textOptional : Option Expr → String
  | none => ""
  | some expression => " " ++ expression.text

/-- Bindings with a space between any two of them. -/
def textBindings : List (String × Option Expr) → String
  | [] => ""
  | [(name, initial)] => "(" ++ name ++ textOptional initial ++ ")"
  | (name, initial) :: next :: rest =>
    "(" ++ name ++ textOptional initial ++ ") " ++ textBindings (next :: rest)

end

end Kaleidoscope.Expr
