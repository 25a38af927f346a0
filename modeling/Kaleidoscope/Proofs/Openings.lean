import Kaleidoscope.Proofs.Independence
import Kaleidoscope.Proofs.Nesting

set_option autoImplicit false

/- Reading without a limit on the operands that are open, with a record of them. The record changes
nothing: `Production.governs` says, among other things, that the answers are those of the readers in
a session without a limit. -/

namespace Kaleidoscope

/-- An operand at the moment it is opened: how many are open then, this one included, and the
tokens ahead. -/
structure Opening where
  count : Nat
  tokens : TokenStream

/-- The same operand, counted from outside an operand around it. -/
def Opening.inside (opening : Opening) : Opening :=
  { opening with count := opening.count + 1 }

/-- A reading step with the record of the operands that it opens, in the order of opening. -/
def WatchedParser (α : Type) : Type :=
  Session → Option (Outcome α × Session) × List Opening

namespace WatchedParser

variable {α β : Type}

def pure (value : α) : WatchedParser α :=
  fun session => (some (.parsed value, session), [])

/-- Goes on with the value of the first step, and with its record. -/
def bind (first : WatchedParser α) (next : α → WatchedParser β) : WatchedParser β :=
  fun session =>
    match first session with
    | (none, openings) => (none, openings)
    | (some (.parsed value, after), openings) =>
      ((next value after).1, openings ++ (next value after).2)
    | (some (.incomplete, after), openings) => (some (.incomplete, after), openings)
    | (some (.failed failure, after), openings) => (some (.failed failure, after), openings)

instance : Monad WatchedParser where
  pure := WatchedParser.pure
  bind := WatchedParser.bind

/-- A step that opens nothing. -/
def lift (step : Parser α) : WatchedParser α :=
  fun session => (some (step session), [])

/-- A step that finds no fuel left. -/
def starved : WatchedParser α :=
  fun _ => (none, [])

/-- Opens an operand, whatever the limit is, runs a step inside, and closes the operand. -/
def nested (inner : WatchedParser α) : WatchedParser α :=
  fun session =>
    let (answer, openings) := inner session.deeper
    (answer.map fun (outcome, after) => (outcome, after.closeOperand),
      ⟨1, session.tokens⟩ :: openings.map Opening.inside)

instance : FueledReading WatchedParser where
  lift := lift
  look next := fun session => next session.current.kind session.operators session
  nested := nested
  called inner := inner
  starved := starved

/-- Runs a production with enough fuel. -/
def read (rule : Grammar.Rule α) : WatchedParser α :=
  fun session => (Grammar.read session.enoughFuel rule : WatchedParser α) session

end WatchedParser

/-- The reading step, without a limit and with its record. A prototype has no operands. -/
def Production.watch {α : Type} : Production α → WatchedParser α
  | expression => .read .expression
  | operand => .read .operand
  | primary => .read .primary
  | operations minimum left => .read (.operations minimum left)
  | prototype => .lift Session.prototype
  | definition => do
    let _ ← Session.take
    let prototype ← Session.prototype
    let body ← WatchedParser.read .expression
    pure ⟨prototype, body⟩
  | declaration => .lift Session.declaration
  | wrappedExpression => do
    let body ← WatchedParser.read .expression
    pure (.ofExpression body)

end Kaleidoscope
