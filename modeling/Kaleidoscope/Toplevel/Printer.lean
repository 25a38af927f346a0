import Kaleidoscope.Toplevel.Backend

set_option autoImplicit false

/- The printer writes one line for every form and one more for every binary operator that a
definition introduces, and it reports failures in the same place. -/

namespace Kaleidoscope

/-- A store of bytes. -/
structure Sink where
  contents : ByteArray
  /-- The number of bytes that the sink can hold; without one, any number. -/
  capacity : Option Nat
  /-- What the sink says when it is full. -/
  complaint : String

namespace Sink

def unlimited : Sink := ⟨.empty, none, ""⟩

/-- The contents as text. Only a sink that was cut inside a character holds none. -/
def text (sink : Sink) : String :=
  (String.fromUTF8? sink.contents).getD ""

/-- Writes bytes, as many as fit. Tells whether all of them did. -/
def write (sink : Sink) (bytes : ByteArray) : Bool × Sink :=
  let whole := sink.contents ++ bytes
  match sink.capacity with
  | none => (true, { sink with contents := whole })
  | some capacity =>
    if whole.size ≤ capacity then (true, { sink with contents := whole })
    else (false, { sink with contents := whole.extract 0 capacity })

/-- Writes a text and a line feed. A sink that cannot take them refuses with its complaint. -/
def writeLine (sink : Sink) (line : String) : Option Failure × Sink :=
  match sink.write (line ++ "\n").toUTF8 with
  | (true, after) => (none, after)
  | (false, after) => (some ⟨.backend sink.complaint, .nowhere⟩, after)

end Sink

/-- The backend that prints forms. -/
structure Printer where
  sink : Sink

namespace Printer

/-- The first line about a form. -/
def announcement : Form → String
  | .definition definition => "Parsed a function definition: " ++ definition.text
  | .declaration prototype => "Parsed an extern: " ++ prototype.text
  | .expression wrapped => "Parsed a top-level expression: " ++ wrapped.body.text

/-- The second line about the definition of a binary operator. -/
def registration (prototype : Prototype) : String :=
  "Registered operator `" ++ String.ofList prototype.symbol?.toList ++ "` with precedence " ++
    toString prototype.precedence.toNat

/-- Enters the operator that a definition introduces, and says so. -/
def introduce (printer : Printer) (prototype : Prototype) (operators : OperatorTable) :
    Reaction Printer :=
  match operators.declare? prototype with
  | none => ⟨none, printer, operators⟩
  | some extended =>
    let (refusal, sink) := printer.sink.writeLine (registration prototype)
    ⟨refusal, ⟨sink⟩, extended⟩

def accept (printer : Printer) (form : Form) (operators : OperatorTable) : Reaction Printer :=
  match printer.sink.writeLine (announcement form) with
  | (some refusal, sink) => ⟨some refusal, ⟨sink⟩, operators⟩
  | (none, sink) =>
    match form with
    | .definition definition => introduce ⟨sink⟩ definition.prototype operators
    | _ => ⟨none, ⟨sink⟩, operators⟩

/-- Prints a failure. A sink that is full is left as it is. -/
def report (printer : Printer) (failure : Option Failure) : Printer :=
  ⟨(printer.sink.writeLine (failureReport failure)).2⟩

instance : Backend Printer where
  accept := accept
  report := report

end Printer

end Kaleidoscope
