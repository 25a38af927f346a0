import Kaleidoscope.Grammar.Expression

set_option autoImplicit false

/-
    prototype  := name '(' name* ')'
                | 'unary' symbol '(' name ')'
                | 'binary' symbol number? '(' name name ')'
    definition := 'def' prototype expression
    external   := 'extern' prototype
-/

namespace Kaleidoscope

/-- One form of the top level. -/
inductive Form where
  | definition (definition : Definition)
  | declaration (prototype : Prototype)
  | expression (wrapped : Definition)

/-- The prototype of the function that the form is about. -/
def Form.prototype : Form → Prototype
  | definition given => given.prototype
  | declaration prototype => prototype
  | expression wrapped => wrapped.prototype

namespace Grammar

/-- The lowest precedence that may be declared. -/
def lowestPrecedence : Nat := 1

/-- The highest precedence that may be declared. -/
def highestPrecedence : Nat := 100

/-- The precedence of a binary operator declared without one. -/
def defaultPrecedence : UInt32 := 30

/-- What a prototype starts with. -/
inductive Heading where
  | function (name : String)
  | unary (symbol : Char)
  | binary (symbol : Char) (precedence : UInt32)
  deriving DecidableEq

/-- The symbol of an operator that is being declared. -/
def operatorSymbol : Parser Char :=
  fun session =>
    match session.current.kind with
    | .symbol symbol => (.parsed symbol, session.advance)
    | .endOfInput => (.incomplete, session)
    | kind => (.failed (session.failure (.noSymbol kind.text)), session)

def isDeclarable (precedence : Number) : Bool :=
  !precedence.below (.ofNat lowestPrecedence) && !(Number.ofNat highestPrecedence).below precedence

/-- The precedence of a binary operator that is being declared. A fraction is cut off. -/
def operatorPrecedence : Parser UInt32 :=
  fun session =>
    match session.current.kind with
    | .number value =>
      if isDeclarable value then (.parsed (UInt32.ofNat value.wholePart), session.advance)
      else (.failed (session.failure (.precedenceOutOfRange value)), session)
    | _ => (.parsed defaultPrecedence, session)

def heading : Parser Heading :=
  fun session =>
    match session.current.kind with
    | .identifier name => (.parsed (.function name), session.advance)
    | .keyword .unaryWord => (do
        let symbol ← operatorSymbol
        pure (.unary symbol) : Parser Heading) session.advance
    | .keyword .binaryWord => (do
        let symbol ← operatorSymbol
        let precedence ← operatorPrecedence
        pure (.binary symbol precedence) : Parser Heading) session.advance
    | _ => Session.unexpected "expected function name in prototype" session

/-- Names up to the first token that is none, at most `count` of them, all different from each
other and from those in `taken`. -/
def parameters : (count : Nat) → (taken : List String) → Parser (List String)
  | 0, taken => pure taken
  | count + 1, taken => fun session =>
    match session.current.kind with
    | .identifier name =>
      if name ∈ taken then (.failed (session.failure (.repeatedParameter name)), session)
      else parameters count (taken ++ [name]) session.advance
    | _ => (.parsed taken, session)

/-- The prototype with the given start and parameters; an operator of the wrong number of
parameters is a failure at the position of its first word. -/
def Heading.finish (position : Position) (parameters : List String) : Heading → Outcome Prototype
  | function name => .parsed (.function name parameters)
  | unary symbol =>
    if parameters.length = 1 then .parsed (.unary symbol parameters)
    else .failed ⟨.wrongArity symbol 1 parameters.length, position⟩
  | binary symbol precedence =>
    if parameters.length = 2 then .parsed (.binary symbol parameters precedence)
    else .failed ⟨.wrongArity symbol 2 parameters.length, position⟩

end Grammar

namespace Session

def prototype : Parser Prototype :=
  fun session => (do
    let heading ← Grammar.heading
    let _ ← expect (.symbol '(') "expected '(' in prototype"
    let parameters ← fun inside => Grammar.parameters inside.remaining [] inside
    let _ ← expect (.symbol ')') "expected ')' in prototype"
    fun after => (heading.finish session.position parameters, after) : Parser Prototype) session

/-- A definition; its first word is the current token. -/
def definition : Parser Definition := do
  let _ ← take
  let prototype ← prototype
  let body ← expression
  pure ⟨prototype, body⟩

/-- The declaration of a function that is defined elsewhere; its first word is the current token. -/
def declaration : Parser Prototype := do
  let _ ← take
  prototype

/-- An expression of the top level, wrapped as a function. -/
def wrappedExpression : Parser Definition := do
  let body ← expression
  pure (.ofExpression body)

/-- One form of the top level; the current token tells which. -/
def form : Parser Form :=
  fun session =>
    match session.current.kind with
    | .keyword .defWord => (do return .definition (← definition) : Parser Form) session
    | .keyword .externWord => (do return .declaration (← declaration) : Parser Form) session
    | _ => (do return .expression (← wrappedExpression) : Parser Form) session

end Session

end Kaleidoscope
