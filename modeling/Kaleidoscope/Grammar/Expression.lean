import Kaleidoscope.Session

set_option autoImplicit false

/-
    expression := operand (symbol operand)*
    operand    := primary | symbol operand
    primary    := number | name | name '(' (expression (',' expression)*)? ')' | '(' expression ')'
                | 'if' expression 'then' expression 'else' expression
                | 'for' name '=' expression ',' expression (',' expression)? 'in' expression
                | 'var' binding (',' binding)* 'in' expression
    binding    := name ('=' expression)?
-/

namespace Kaleidoscope

/-- What the productions of expressions are built with. Whatever provides this can run them, and can
keep a record of its own on the way. -/
class Reading (P : Type → Type) extends Monad P where
  /-- A step that is no production of expressions. -/
  lift {α : Type} (step : Parser α) : P α
  /-- Goes on as the current token and the operators in force say. -/
  look {α : Type} (next : Token.Kind → OperatorTable → P α) : P α
  /-- Runs a step with one more operand open, and closes it whatever the outcome is. -/
  nested {α : Type} (inner : P α) : P α
  /-- A call for the operations behind an operand. -/
  called {α : Type} (inner : P α) : P α

/-- A reading that can also end for want of fuel. -/
class FueledReading (P : Type → Type) extends Reading P where
  starved {α : Type} : P α

instance {P : Type → Type} [Reading P] : MonadLift Parser P := ⟨Reading.lift⟩

namespace Grammar

/-- The productions of expressions, by what they give. -/
inductive Rule : Type → Type where
  | expression : Rule Expr
  /-- Extends `left` by operators and operands for as long as the operators bind at least as tightly
  as `minimum`. An operator that binds tighter than the one before it takes the operand between. -/
  | operations (minimum : Int32) (left : Expr) : Rule Expr
  /-- Extends the right operand of an operator by what binds tighter than that operator. -/
  | tighter (precedence : Int32) (right : Expr) : Rule Expr
  | operand : Rule Expr
  /-- A primary expression with any number of operators before it. -/
  | prefixed : Rule Expr
  | primary : Rule Expr
  /-- What follows an opening parenthesis. -/
  | parenthesized : Rule Expr
  /-- What follows a name: the arguments of a call, or nothing. -/
  | named (name : String) : Rule Expr
  /-- One argument or more, and a closing parenthesis. -/
  | arguments : Rule (List Expr)
  /-- What follows `if`. -/
  | conditional : Rule Expr
  /-- What follows `for`. -/
  | loop : Rule Expr
  /-- What follows `var`. -/
  | scope : Rule Expr
  /-- One binding or more; `later` tells whether there is one before them. -/
  | bindings (later : Bool) : Rule (List (String × Option Expr))

section Productions

variable {P : Type → Type} [Reading P] {α : Type}

/-- Goes on behind the current token if what it is, and the operators in force, give something to go
on with. -/
def behind (next : Token.Kind → OperatorTable → Option (P α)) (otherwise : P α) : P α :=
  Reading.look fun kind operators =>
    match next kind operators with
    | some inner => do
      let _ ← Session.take
      inner
    | none => otherwise

/-- Goes on behind the current token if it is the character `mark`. -/
def behindMark (mark : Char) (present absent : P α) : P α :=
  behind (fun kind _ => if kind == .symbol mark then some present else none) absent

variable (call : {α : Type} → Rule α → P α)

/-- An expression that is there if the character `mark` announces it. -/
def optional (mark : Char) : P (Option Expr) :=
  let value : P (Option Expr) := do
    let value ← call .expression
    pure (some value)
  behindMark mark value (pure none)

/-- What follows the first token of a primary expression. -/
def begun : Token.Kind → Option (P Expr)
  | .identifier name => some (call (.named name))
  | .number value => some (pure (.number value))
  | .keyword .ifWord => some (call .conditional)
  | .keyword .forWord => some (call .loop)
  | .keyword .varWord => some (call .scope)
  | .symbol symbol => if symbol = '(' then some (call .parenthesized) else none
  | _ => none

/-- What a production takes, in terms of the productions that it calls. -/
def body : {α : Type} → Rule α → P α
  | _, .expression => do
    let left ← call .operand
    Reading.called (call (.operations 0 left))
  | _, .operations minimum left =>
    let next : Token.Kind → OperatorTable → Option (P Expr)
      | .symbol symbol, operators =>
        let precedence := operators.precedence symbol
        if precedence < minimum then none
        else some do
          let first ← call .operand
          let right ← call (.tighter precedence first)
          call (.operations minimum (.binary symbol left right))
      | _, _ => none
    behind next (pure left)
  | _, .tighter precedence right => Reading.look fun kind operators =>
    if precedence < operators.precedenceOf kind then
      Reading.called (call (.operations (precedence + 1) right))
    else pure right
  | _, .operand => Reading.nested (call .prefixed)
  | _, .prefixed =>
    -- Any character but an opening parenthesis and a comma may stand before an operand.
    let next : Token.Kind → OperatorTable → Option (P Expr)
      | .symbol symbol, _ =>
        if symbol = '(' ∨ symbol = ',' then none
        else some do
          let inner ← call .operand
          pure (.unary symbol inner)
      | _, _ => none
    behind next (call .primary)
  | _, .primary => behind (fun kind _ => begun call kind) Session.noExpression
  | _, .parenthesized => do
    let inner ← call .expression
    let _ ← Session.expectKind (.symbol ')')
    pure inner
  | _, .named name =>
    let given : P Expr := do
      let given ← call .arguments
      pure (.call name given)
    behindMark '(' (behindMark ')' (pure (.call name [])) given) (pure (.reference name))
  | _, .arguments => do
    let first ← call .expression
    let others : P (List Expr) := do
      let others ← call .arguments
      pure (first :: others)
    behindMark ')' (pure [first])
      (behindMark ',' others (Session.unexpected "expected ')' or ',' in argument list"))
  | _, .conditional => do
    let condition ← call .expression
    let _ ← Session.expect (.keyword .thenWord) "expected then"
    let consequent ← call .expression
    let _ ← Session.expect (.keyword .elseWord) "expected else"
    let alternative ← call .expression
    pure (.conditional condition consequent alternative)
  | _, .loop => do
    let counter ← Session.expectName "expected identifier after for"
    let _ ← Session.expect (.symbol '=') "expected '=' after for"
    let start ← call .expression
    let _ ← Session.expect (.symbol ',') "expected ',' after for start value"
    let stop ← call .expression
    let step ← optional call ','
    let _ ← Session.expect (.keyword .inWord) "expected 'in' after for"
    let body ← call .expression
    pure (.loop counter start stop step body)
  | _, .scope => do
    let bound ← call (.bindings false)
    let _ ← Session.expect (.keyword .inWord) "expected 'in' keyword after 'var'"
    let body ← call .expression
    pure (.scope bound body)
  | _, .bindings later => do
    let name ← Session.expectName
      (if later then "expected identifier list after var" else "expected identifier after var")
    let initial ← optional call '='
    let others : P (List (String × Option Expr)) := do
      let others ← call (.bindings true)
      pure ((name, initial) :: others)
    behindMark ',' others (pure [(name, initial)])

end Productions

/-- Runs a production with calls at most `fuel` levels deep. -/
def read {P : Type → Type} [FueledReading P] : (fuel : Nat) → {α : Type} → Rule α → P α
  | 0, _, _ => FueledReading.starved
  | fuel + 1, _, rule => body (read fuel) rule

end Grammar

namespace Parser

variable {α : Type}

/-- Runs a step with one more operand open, and closes it whatever the outcome is. -/
def nested (inner : Parser α) : Parser α :=
  fun session =>
    match session.openOperand with
    | .error failure => (.failed failure, session)
    | .ok deeper => ((inner deeper).1, (inner deeper).2.closeOperand)

instance : Reading Parser where
  lift step := step
  look next := fun session => next session.current.kind session.operators session
  nested := nested
  called inner := inner

@[simp]
theorem look_apply (next : Token.Kind → OperatorTable → Parser α) (session : Session) :
    (Reading.look next : Parser α) session =
      next session.current.kind session.operators session := rfl

@[simp]
theorem take_bind (next : Token → Parser α) (session : Session) :
    (liftM Session.take >>= next : Parser α) session = next session.current session.advance := rfl

theorem behind_of_some {next : Token.Kind → OperatorTable → Option (Parser α)}
    {inner otherwise : Parser α} {session : Session}
    (given : next session.current.kind session.operators = some inner) :
    Grammar.behind next otherwise session = inner session.advance := by
  simp only [Grammar.behind, look_apply, given]
  rfl

theorem behind_of_none {next : Token.Kind → OperatorTable → Option (Parser α)}
    {otherwise : Parser α} {session : Session}
    (given : next session.current.kind session.operators = none) :
    Grammar.behind next otherwise session = otherwise session := by
  simp only [Grammar.behind, look_apply, given]

@[simp]
theorem behindMark_apply (mark : Char) (present absent : Parser α) (session : Session) :
    Grammar.behindMark mark present absent session =
      if session.sees mark then present session.advance else absent session := by
  unfold Grammar.behindMark Session.sees
  split
  next seen => exact behind_of_some (if_pos seen)
  next other => exact behind_of_none (if_neg other)

end Parser

/-- A reading step that may give up for want of fuel. -/
def BoundedParser (α : Type) : Type :=
  Session → Option (Outcome α × Session)

namespace BoundedParser

variable {α β : Type}

def pure (value : α) : BoundedParser α :=
  fun session => some (.parsed value, session)

/-- Goes on with the value of the first step; any other outcome ends both. -/
def bind (first : BoundedParser α) (next : α → BoundedParser β) : BoundedParser β :=
  fun session =>
    match first session with
    | none => none
    | some (.parsed value, after) => next value after
    | some (.incomplete, after) => some (.incomplete, after)
    | some (.failed failure, after) => some (.failed failure, after)

instance : Monad BoundedParser where
  pure := BoundedParser.pure
  bind := BoundedParser.bind

/-- A step that needs no fuel. -/
def lift (step : Parser α) : BoundedParser α :=
  fun session => some (step session)

/-- A step that finds no fuel left. -/
def starved : BoundedParser α :=
  fun _ => none

/-- Runs a step with one more operand open, and closes it whatever the outcome is. -/
def nested (inner : BoundedParser α) : BoundedParser α :=
  fun session =>
    match session.openOperand with
    | .error failure => some (.failed failure, session)
    | .ok deeper => (inner deeper).map fun (outcome, after) => (outcome, after.closeOperand)

instance : FueledReading BoundedParser where
  lift := lift
  look next := fun session => next session.current.kind session.operators session
  nested := nested
  called inner := inner
  starved := starved

@[simp]
theorem look_apply (next : Token.Kind → OperatorTable → BoundedParser α) (session : Session) :
    (Reading.look next : BoundedParser α) session =
      next session.current.kind session.operators session := rfl

@[simp]
theorem take_bind (next : Token → BoundedParser α) (session : Session) :
    (liftM Session.take >>= next : BoundedParser α) session =
      next session.current session.advance := rfl

theorem behind_of_some {next : Token.Kind → OperatorTable → Option (BoundedParser α)}
    {inner otherwise : BoundedParser α} {session : Session}
    (given : next session.current.kind session.operators = some inner) :
    Grammar.behind next otherwise session = inner session.advance := by
  simp only [Grammar.behind, look_apply, given]
  rfl

theorem behind_of_none {next : Token.Kind → OperatorTable → Option (BoundedParser α)}
    {otherwise : BoundedParser α} {session : Session}
    (given : next session.current.kind session.operators = none) :
    Grammar.behind next otherwise session = otherwise session := by
  simp only [Grammar.behind, look_apply, given]

@[simp]
theorem behindMark_apply (mark : Char) (present absent : BoundedParser α) (session : Session) :
    Grammar.behindMark mark present absent session =
      if session.sees mark then present session.advance else absent session := by
  unfold Grammar.behindMark Session.sees
  split
  next seen => exact behind_of_some (if_pos seen)
  next other => exact behind_of_none (if_neg other)

end BoundedParser

namespace Session

/-- A bound on the depth of the calls that the rest of the input can need. No call goes five levels
down without taking a token, so it is never too little: see `read_of_enough`. -/
def enoughFuel (session : Session) : Nat :=
  5 * session.remaining + 6

/-- Runs a production with enough fuel. -/
def read {α : Type} (rule : Grammar.Rule α) : Parser α :=
  fun session =>
    ((Grammar.read session.enoughFuel rule : BoundedParser α) session).getD (.incomplete, session)

def expression : Parser Expr :=
  read .expression

def operand : Parser Expr :=
  read .operand

def primary : Parser Expr :=
  read .primary

/-- Extends an expression by operators of at least the given precedence and their operands. -/
def operations (minimum : Int32) (left : Expr) : Parser Expr :=
  read (.operations minimum left)

/-- Extends the right operand of an operator by what binds tighter than that operator. -/
def tighter (precedence : Int32) (right : Expr) : Parser Expr :=
  read (.tighter precedence right)

end Session

end Kaleidoscope
