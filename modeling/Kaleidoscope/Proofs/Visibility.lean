import Kaleidoscope.Proofs.Derivation
import Kaleidoscope.Proofs.History
import Kaleidoscope.Toplevel.Printer

set_option autoImplicit false

/- The printer alone changes the operators in force, and only between forms. -/

namespace Kaleidoscope

/-- The binary operator that the prototype stands for, with the precedence declared for it. -/
def Prototype.operator? (prototype : Prototype) : Option Operator :=
  match prototype.isOperator, prototype.parameters, prototype.name.toList with
  | true, [_, _], ['b', 'i', 'n', 'a', 'r', 'y', symbol] =>
    some ⟨symbol, prototype.precedence.toInt32⟩
  | _, _, _ => none

namespace Step

/-- The operator that a step introduces: that of an accepted definition of a binary operator. -/
def introduced? : Step → Option Operator
  | accepted (.definition given) => given.prototype.operator?
  | _ => none

/-- The step that follows from reading a form, if every form is used. -/
def ofOutcome {α : Type} (make : α → Form) : Outcome α × Session → Step
  | (.parsed value, _) => accepted (make value)
  | (.incomplete, after) => failed none after.current
  | (.failed failure, after) => failed (some failure) after.current

/-- The step that follows from what is ahead, if every form is used. -/
def ofSession (session : Session) : Step :=
  match session.current.kind with
  | .endOfInput => finished
  | .symbol ';' => separator
  | .keyword .defWord => ofOutcome .definition session.definition
  | .keyword .externWord => ofOutcome .declaration session.declaration
  | _ => ofOutcome .expression session.wrappedExpression

end Step

theorem Sink.writeLine_of_unlimited {sink : Sink} (free : sink.capacity = none) (line : String) :
    (sink.writeLine line).1 = none ∧ (sink.writeLine line).2.capacity = none := by
  simp [writeLine, write, free]

namespace Prototype

@[simp]
theorem operator?_unary (symbol : Char) (parameter : String) :
    (unary symbol [parameter]).operator? = none := rfl

@[simp]
theorem operator?_binary (symbol : Char) (left right : String) (precedence : UInt32) :
    (binary symbol [left, right] precedence).operator? = some ⟨symbol, precedence.toInt32⟩ := by
  simp [operator?, binary]

theorem symbol?_binary (symbol : Char) (parameters : List String) (precedence : UInt32) :
    (binary symbol parameters precedence).symbol? = some symbol := by
  simp [symbol?, binary]

end Prototype

namespace OperatorTable

theorem declare_binary (table : OperatorTable) (symbol : Char) (left right : String)
    (precedence : UInt32) :
    table.declare (.binary symbol [left, right] precedence) =
      table.define symbol precedence.toInt32 := by
  simp only [declare, declare?, Prototype.symbol?_binary]
  rfl

/-- Entering what a prototype declares is entering the operator that it stands for. -/
theorem declare_of_derives {row : List Token.Kind} {prototype : Prototype}
    (derived : Grammar.DerivesPrototype row prototype) (table : OperatorTable) :
    table.declare prototype = table.defineAll prototype.operator?.toList := by
  cases derived with
  | function name distinct => rfl
  | unary symbol parameter =>
    have loose : (Prototype.unary symbol [parameter]).binaryPrecedence? = none := rfl
    simp [declare, declare?, loose, defineAll]
  | binary symbol distinct =>
    rw [declare_binary, Prototype.operator?_binary]
    rfl
  | weighted symbol declarable distinct =>
    rw [declare_binary, Prototype.operator?_binary]
    rfl

end OperatorTable

/-- The table behind a form that the printer has used. -/
def OperatorTable.enter (table : OperatorTable) : Form → OperatorTable
  | .definition given => table.declare given.prototype
  | _ => table

namespace Printer

/-- A printer whose sink never fails uses every form, and enters the operators of definitions. -/
theorem accept_of_unlimited {printer : Printer} (free : printer.sink.capacity = none) (form : Form)
    (operators : OperatorTable) :
    (printer.accept form operators).refusal = none ∧
    (printer.accept form operators).backend.sink.capacity = none ∧
    (printer.accept form operators).operators = operators.enter form := by
  obtain ⟨written, still⟩ := Sink.writeLine_of_unlimited free (announcement form)
  unfold accept
  generalize printer.sink.writeLine (announcement form) = result at written still
  obtain ⟨refusal, sink⟩ := result
  subst written
  cases form with
  | declaration prototype => exact ⟨rfl, still, rfl⟩
  | expression wrapped => exact ⟨rfl, still, rfl⟩
  | definition given =>
    have further := Sink.writeLine_of_unlimited still (registration given.prototype)
    simp only [introduce, OperatorTable.enter, OperatorTable.declare]
    cases operators.declare? given.prototype with
    | none => exact ⟨rfl, still, rfl⟩
    | some extended => exact ⟨further.1, further.2, rfl⟩

end Printer

namespace Step

theorem ofOutcome_map {α : Type} (make : α → Form) (reader : Parser α) (session : Session) :
    ofOutcome id ((do return make (← reader) : Parser Form) session) =
      ofOutcome make (reader session) := by
  change ofOutcome id (Parser.bind reader (fun value => pure (make value)) session) = _
  unfold Parser.bind
  generalize reader session = result
  obtain ⟨outcome, after⟩ := result
  cases outcome <;> rfl

/-- Where a form starts, the current token tells which function reads it. -/
theorem ofSession_eq {session : Session} (more : session.current.kind ≠ .endOfInput)
    (plain : session.current.kind ≠ .symbol ';') :
    ofSession session = ofOutcome id session.form := by
  unfold ofSession Session.form
  split
  next ended => exact absurd ended more
  next seen => exact absurd seen plain
  next word => simp only [word, ofOutcome_map]
  next word => simp only [word, ofOutcome_map]
  next unlikeDef unlikeExtern =>
    split
    next word => exact absurd word unlikeDef
    next word => exact absurd word unlikeExtern
    next => rw [ofOutcome_map]

end Step

namespace Toplevel

/-- The printer enters for a form what its step introduces. -/
theorem enter_of_derives {operators : OperatorTable} {row : List Token.Kind} {form : Form}
    (derived : Grammar.DerivesForm operators row form) (table : OperatorTable) :
    table.enter form = table.defineAll (Step.accepted form).introduced?.toList := by
  cases derived with
  | definition named inside => exact OperatorTable.declare_of_derives named table
  | declaration named => rfl
  | expression only => rfl

/-- A step of a printer whose sink never fails: what it comes to is settled by reading with the
operators in force, and it enters the operator that it introduces and no other. -/
theorem step_of_unlimited {top : Toplevel Printer} (free : top.backend.sink.capacity = none) :
    top.step.1 = Step.ofSession top.session ∧
    top.step.2.session.operators =
      top.session.operators.defineAll top.step.1.introduced?.toList ∧
    top.step.2.backend.sink.capacity = none := by
  have yields := Session.form_yields top.session
  have level := yields.operators_eq
  have taken := top.dispatch
  generalize top.step = result at taken ⊢
  cases taken with
  | finished ended => exact ⟨by simp [Step.ofSession, ended], rfl, free⟩
  | separator seen => exact ⟨by simp [Step.ofSession, seen], rfl, free⟩
  | @submitted form session more plain run =>
    unfold Parser.Yields at yields
    rw [run] at yields level
    obtain ⟨row, -, related⟩ := yields
    obtain ⟨used, still, entered⟩ := Printer.accept_of_unlimited free form session.operators
    have same : session.operators = top.session.operators := level
    rw [enter_of_derives (related form rfl)] at entered
    rw [submit_of_used used]
    refine ⟨?_, entered.trans (by rw [same]), still⟩
    rw [Step.ofSession_eq more plain, run]
    rfl
  | @incomplete session more plain run =>
    rw [run] at level
    refine ⟨?_, level, (Sink.writeLine_of_unlimited free _).2⟩
    rw [Step.ofSession_eq more plain, run]
    rfl
  | @failed failure session more plain run =>
    rw [run] at level
    refine ⟨?_, level, (Sink.writeLine_of_unlimited free _).2⟩
    rw [Step.ofSession_eq more plain, run]
    rfl

/-- Over a run the table grows by what the steps introduce. -/
theorem operators_of_runFor {top : Toplevel Printer} (free : top.backend.sink.capacity = none)
    (count : Nat) :
    (top.runFor count).session.operators =
      top.session.operators.defineAll ((top.history count).filterMap Step.introduced?) ∧
    (top.runFor count).backend.sink.capacity = none := by
  induction count with
  | zero => exact ⟨rfl, free⟩
  | succ count hypothesis =>
    obtain ⟨before, still⟩ := hypothesis
    obtain ⟨-, entered, later⟩ := step_of_unlimited still
    have last : [(top.runFor count).step.1].filterMap Step.introduced? =
        (top.runFor count).step.1.introduced?.toList := by
      cases new : (top.runFor count).step.1.introduced? <;> simp [new]
    rw [session_runFor_succ, backend_runFor_succ, entered, before, history_succ,
      List.filterMap_append, OperatorTable.defineAll_append, last]
    exact ⟨rfl, later⟩

/-- One step of a run, with `table` in force for the whole of the form that it reads. -/
structure StepsUnder (table : OperatorTable) (before after : Toplevel Printer) : Prop where
  inForce : before.session.operators = table
  /-- The step is what the function for the current token reads with the table. -/
  reads : before.step.1 = Step.ofSession { before.session with operators := table }
  /-- None of these functions changes the table, whatever its outcome is. -/
  definition : before.session.current.kind = .keyword .defWord →
    (Session.definition { before.session with operators := table }).2.operators = table
  declaration : before.session.current.kind = .keyword .externWord →
    (Session.declaration { before.session with operators := table }).2.operators = table
  expression :
    (Session.wrappedExpression { before.session with operators := table }).2.operators = table
  /-- A form that is accepted is made of the tokens that the step takes, under the table. -/
  derives : ∀ form, before.step.1 = .accepted form → ∃ row : List Token,
    before.session.tokens.toList = row ++ after.session.tokens.toList ∧
      Grammar.DerivesForm table (row.map Token.kind) form
  /-- An operator that the step introduces is in force behind it. -/
  enters : ∀ operator, before.step.1.introduced? = some operator →
    after.session.operators = table.define operator.symbol operator.precedence ∧
      after.session.operators.get? operator.symbol = some operator.precedence
  /-- A step that introduces none leaves the table as it is. -/
  keeps : before.step.1.introduced? = none → after.session.operators = table

theorem stepsUnder_of_unlimited {top after : Toplevel Printer}
    (free : top.backend.sink.capacity = none) (next : after.session = top.step.2.session) :
    StepsUnder top.session.operators top after := by
  obtain ⟨reads, entered, -⟩ := step_of_unlimited free
  exact {
    inForce := rfl
    reads := reads
    definition := fun word => (Session.definition_yields word).operators_eq
    declaration := fun word => (Session.declaration_yields word).operators_eq
    expression := (Session.wrappedExpression_yields top.session).operators_eq
    derives := by
      intro form accepted
      rw [next]
      exact row_of_step (.inl (Prod.ext accepted rfl))
    enters := by
      intro operator new
      rw [next, entered, new]
      exact ⟨rfl, OperatorTable.get?_define _ _ _⟩
    keeps := by
      intro new
      rw [next, entered, new]
      rfl }

/-- In a run of a printer whose sink never fails, from any session on, the operators before a step
are those at the start with those of the accepted definitions of binary operators entered in order,
and the form that the step reads has these for the whole of it: an operator is not in force inside
the form that declares it, and it is from the next form on. -/
theorem operators_visible_from_next_step (session : Session) (contents : ByteArray)
    (complaint : String) (prompt : Option String) (count : Nat) :
    let top : Toplevel Printer := .start session ⟨⟨contents, none, complaint⟩⟩ prompt
    StepsUnder (session.operators.defineAll ((top.history count).filterMap Step.introduced?))
      (top.runFor count) (top.runFor (count + 1)) := by
  intro top
  have free : top.backend.sink.capacity = none := rfl
  obtain ⟨reached, still⟩ := operators_of_runFor free count
  have steps := stepsUnder_of_unlimited still (top.session_runFor_succ count)
  rw [reached] at steps
  exact steps

-- `def binary| (a b) a | b` ends before its own operator: `| b` is a form with an operator before
-- an operand, and only there the new one is in force.
example :
    let place (kind : Token.Kind) : Token := ⟨kind, ⟨.nowhere, .nowhere⟩⟩
    let kinds : List Token.Kind := [.keyword .defWord, .keyword .binaryWord, .symbol '|',
      .symbol '(', .identifier "a", .identifier "b", .symbol ')', .identifier "a", .symbol '|',
      .identifier "b"]
    let top : Toplevel Printer :=
      .start (.start ⟨kinds.map place, .nowhere, none⟩ .empty) ⟨.unlimited⟩ none
    top.history 2 = [.accepted (.definition ⟨.binary '|' ["a", "b"] 30, .reference "a"⟩),
        .accepted (.expression (.ofExpression (.unary '|' (.reference "b"))))] ∧
      (top.history 2).filterMap Step.introduced? = [⟨'|', 30⟩] := by
  exact ⟨rfl, rfl⟩

end Toplevel

end Kaleidoscope
