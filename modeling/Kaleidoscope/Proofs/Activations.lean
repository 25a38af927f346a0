import Kaleidoscope.Grammar.Expression

set_option autoImplicit false

/- Reading with a record of the calls that are open at a time: those for an operand and those for
the operations behind one. The record holds the stack of open calls at each moment when one is
added, so all that are ever open together are in one of its stacks. Turning the loop over operations
is no new call. -/

namespace Kaleidoscope

/-- A call that is open. -/
inductive Activation where
  /-- For an operand that was entered, or that is being refused for too much nesting. -/
  | operand (entered : Bool)
  /-- For the operations behind an operand. -/
  | operations
  deriving DecidableEq

def Activation.isOperand : Activation → Bool
  | operand _ => true
  | operations => false

/-- An answer with the stacks of open calls on the way to it, each with the outermost call first. -/
structure Trace (α : Type) where
  answer : Option (Outcome α × Session)
  calls : List (List Activation)

/-- The trace of a call, given what happens inside of it. -/
def Trace.during {α : Type} (call : Activation) (inner : Trace α) : Trace α :=
  ⟨inner.answer, ([] :: inner.calls).map (call :: ·)⟩

/-- A reading step with the stacks of open calls. -/
def TracedParser (α : Type) : Type :=
  Session → Trace α

namespace TracedParser

variable {α β : Type}

def pure (value : α) : TracedParser α :=
  fun session => ⟨some (.parsed value, session), []⟩

/-- Goes on with the value of the first step; the calls of the first are closed then. -/
def bind (first : TracedParser α) (next : α → TracedParser β) : TracedParser β :=
  fun session =>
    match first session with
    | ⟨none, calls⟩ => ⟨none, calls⟩
    | ⟨some (.parsed value, after), calls⟩ =>
      ⟨(next value after).answer, calls ++ (next value after).calls⟩
    | ⟨some (.incomplete, after), calls⟩ => ⟨some (.incomplete, after), calls⟩
    | ⟨some (.failed failure, after), calls⟩ => ⟨some (.failed failure, after), calls⟩

instance : Monad TracedParser where
  pure := TracedParser.pure
  bind := TracedParser.bind

/-- A step without calls of interest. -/
def lift (step : Parser α) : TracedParser α :=
  fun session => ⟨some (step session), []⟩

/-- A step that finds no fuel left. -/
def starved : TracedParser α :=
  fun _ => ⟨none, []⟩

/-- A call for operations. -/
def called (inner : TracedParser α) : TracedParser α :=
  fun session => .during .operations (inner session)

/-- A call for an operand. It is open also while it is being refused. -/
def nested (inner : TracedParser α) : TracedParser α :=
  fun session =>
    match session.openOperand with
    | .error failure => .during (.operand false) ⟨some (.failed failure, session), []⟩
    | .ok deeper => .during (.operand true)
        ⟨(inner deeper).answer.map fun (outcome, after) => (outcome, after.closeOperand),
          (inner deeper).calls⟩

instance : FueledReading TracedParser where
  lift := lift
  look next := fun session => next session.current.kind session.operators session
  nested := nested
  called := called
  starved := starved

@[simp]
theorem look_apply (next : Token.Kind → OperatorTable → TracedParser α) (session : Session) :
    (Reading.look next : TracedParser α) session =
      next session.current.kind session.operators session := rfl

end TracedParser

end Kaleidoscope
