import Kaleidoscope.Proofs.Entries
import Kaleidoscope.Proofs.Visibility

set_option autoImplicit false

/- The operator of a definition is entered between the two lines about it, so a definition whose
second line does not fit is refused with its operator in force. -/

namespace Kaleidoscope

namespace Sink

/-- Whether a text and a line feed fit into what is left of the sink. -/
def Fits (sink : Sink) (line : String) : Prop :=
  ∀ capacity ∈ sink.capacity, sink.contents.size + (line.utf8ByteSize + 1) ≤ capacity

instance (sink : Sink) (line : String) : Decidable (sink.Fits line) :=
  inferInstanceAs (Decidable (∀ capacity ∈ sink.capacity, _))

theorem writeLine_eq_none_iff {sink : Sink} {line : String} :
    (sink.writeLine line).1 = none ↔ sink.Fits line := by
  have feed : "\n".utf8ByteSize = 1 := rfl
  cases limit : sink.capacity with
  | none => simp [Fits, writeLine, write, limit]
  | some capacity =>
    by_cases room : sink.contents.size + (line.utf8ByteSize + 1) ≤ capacity
    · simp [Fits, writeLine, write, limit, feed, room]
    · simp [Fits, writeLine, write, limit, feed, room]

end Sink

namespace Printer

/-- The table behind a form, used or refused, is settled by the first line about it. -/
theorem operators_accept (printer : Printer) (form : Form) (operators : OperatorTable) :
    (printer.sink.Fits (announcement form) →
      (printer.accept form operators).operators = operators.enter form) ∧
    (¬ printer.sink.Fits (announcement form) →
      (printer.accept form operators).operators = operators) := by
  rw [← Sink.writeLine_eq_none_iff]
  unfold accept
  rcases printer.sink.writeLine (announcement form) with ⟨_ | refusal, sink⟩
  · refine ⟨fun _ => ?_, fun full => absurd rfl full⟩
    cases form with
    | declaration prototype => rfl
    | expression wrapped => rfl
    | definition given =>
      simp only [introduce, OperatorTable.enter, OperatorTable.declare]
      cases operators.declare? given.prototype <;> rfl
  · exact ⟨fun fits => absurd fits (Option.some_ne_none refusal), fun _ => rfl⟩

theorem operators_accept_eq_iff (printer : Printer) (form : Form) (operators : OperatorTable) :
    (printer.accept form operators).operators = operators ↔
      ¬ printer.sink.Fits (announcement form) ∨ operators.enter form = operators := by
  obtain ⟨entered, kept⟩ := printer.operators_accept form operators
  by_cases fits : printer.sink.Fits (announcement form)
  · simp [entered fits, fits]
  · simp [kept fits, fits]

end Printer

namespace Toplevel

/-- A form that was read leaves the table as it is, when it is entered, exactly if the table has
the operator that the form introduces. -/
theorem enter_eq_self_iff {operators : OperatorTable} {row : List Token.Kind} {form : Form}
    (derived : Grammar.DerivesForm operators row form) (table : OperatorTable) :
    table.enter form = table ↔ ∀ operator ∈ (Step.accepted form).introduced?,
      table.get? operator.symbol = some operator.precedence := by
  rw [enter_of_derives derived]
  cases (Step.accepted form).introduced? with
  | none => simp [OperatorTable.defineAll]
  | some operator => simpa [OperatorTable.defineAll] using OperatorTable.define_eq_self_iff

/-- The printer that refuses a form has left the table as it was exactly if the first line about
the form did not fit into its sink, or entering the form's operator is no change. So has a step
that hands a form over and finds it refused, whatever state it starts from; there the operator is
no change exactly if the table has it with the same precedence. -/
theorem refusal_keeps_table_iff (top : Toplevel Printer) (form : Form) (operators : OperatorTable) :
    ((top.backend.accept form operators).refusal ≠ none →
      ((top.backend.accept form operators).operators = operators ↔
        ¬ top.backend.sink.Fits (Printer.announcement form) ∨ operators.enter form = operators)) ∧
    ∀ failure, top.step.1 = .rejected form failure →
      (top.step.2.session.operators = top.session.operators ↔
        ¬ top.backend.sink.Fits (Printer.announcement form) ∨
          ∀ operator ∈ (Step.accepted form).introduced?,
            top.session.operators.get? operator.symbol = some operator.precedence) := by
  refine ⟨fun _ => top.backend.operators_accept_eq_iff form operators, ?_⟩
  intro failure rejected
  have yields := Session.form_yields top.session
  have level := yields.operators_eq
  have taken := top.dispatch
  generalize top.step = result at rejected taken ⊢
  cases taken with
  | finished ended => cases rejected
  | separator seen => cases rejected
  | incomplete more plain run => cases rejected
  | failed more plain run => cases rejected
  | @submitted submitted session more plain run =>
    obtain ⟨rfl, -⟩ := form_of_submit (.inr ⟨failure, Prod.ext rejected rfl⟩)
    unfold Parser.Yields at yields
    rw [run] at yields level
    obtain ⟨row, -, derived⟩ := yields
    have same : session.operators = top.session.operators := level
    rw [operators_submit, same, ← enter_eq_self_iff (derived submitted rfl)]
    exact top.backend.operators_accept_eq_iff submitted top.session.operators

/-- The first line about the definition takes 67 bytes, one more than the sink holds. -/
theorem refusal_keeps_table_iff_of_first_line :
    let place (kind : Token.Kind) : Token := ⟨kind, ⟨.nowhere, .nowhere⟩⟩
    let kinds : List Token.Kind := [.keyword .defWord, .keyword .binaryWord, .symbol '|',
      .symbol '(', .identifier "x", .identifier "y", .symbol ')', .identifier "x"]
    let top : Toplevel Printer :=
      .start (.start ⟨kinds.map place, .nowhere, none⟩ .builtin) ⟨⟨.empty, some 66, "full"⟩⟩ none
    let form : Form := .definition ⟨.binary '|' ["x", "y"] 30, .reference "x"⟩
    top.step.1 = .rejected form ⟨.backend "full", .nowhere⟩ ∧
      (top.backend.accept form .empty).refusal = some ⟨.backend "full", .nowhere⟩ ∧
      (top.backend.accept form .empty).operators = .empty ∧
      top.step.2.session.operators = .builtin := by
  intro place kinds top form
  have rejected : top.step.1 = .rejected form ⟨.backend "full", .nowhere⟩ := rfl
  have refused : (top.backend.accept form .empty).refusal = some ⟨.backend "full", .nowhere⟩ := rfl
  have full : ¬ top.backend.sink.Fits (Printer.announcement form) := by decide +kernel
  obtain ⟨taken, stepped⟩ := refusal_keeps_table_iff top form .empty
  refine ⟨rejected, refused, (taken ?_).2 (.inl full), (stepped _ rejected).2 (.inl full)⟩
  rw [refused]
  exact Option.some_ne_none _

/-- The second line does not fit, and the operator of the refused definition is in force. -/
theorem refused_operator_in_force :
    let tokens : TokenStream := .ofLexer (.ofInput (.ofText "def binary|(x y)x" none) none)
    let sink : Sink := ⟨.empty, some 70, "failed to write whole buffer"⟩
    let top : Toplevel Printer := .start (.start tokens .builtin) ⟨sink⟩ none
    top.step.1 = .rejected (.definition ⟨.binary '|' ["x", "y"] 30, .reference "x"⟩)
        ⟨.backend "failed to write whole buffer", .nowhere⟩ ∧
      top.session.operators.get? '|' = none ∧
      top.step.2.session.operators.get? '|' = some 30 := by
  intro tokens sink top
  let token (column : UInt32) (width : UInt32) (kind : Token.Kind) : Token :=
    ⟨kind, ⟨⟨"shell", 1, column⟩, ⟨"shell", 1, column + width⟩⟩⟩
  have listed : tokens =
      ⟨[token 1 3 (.keyword .defWord), token 5 6 (.keyword .binaryWord), token 11 1 (.symbol '|'),
        token 12 1 (.symbol '('), token 13 1 (.identifier "x"), token 15 1 (.identifier "y"),
        token 16 1 (.symbol ')'), token 17 1 (.identifier "x")],
        ⟨"shell", 1, 18⟩, none⟩ := by decide +kernel
  refine ⟨?_, by decide +kernel, by decide +kernel⟩
  show (Toplevel.start (.start tokens _) _ _).step.1 = _
  rw [listed]
  rfl

end Toplevel

end Kaleidoscope
