import Kaleidoscope.Toplevel.Backend

set_option autoImplicit false

namespace Kaleidoscope

structure Recorder where
  /-- Whether operators are entered. -/
  entersOperators : Bool
  /-- The names that are refused. -/
  refused : List String
  forms : Nat
  /-- All reports, in order. -/
  reports : List (Option Failure)

namespace Recorder

def fresh (entersOperators : Bool) (refused : List String) : Recorder :=
  ⟨entersOperators, refused, 0, []⟩

def refusal (recorder : Recorder) (name : String) : Option Failure :=
  if name ∈ recorder.refused then some ⟨.backend ("cannot link " ++ name), .nowhere⟩ else none

def accept (recorder : Recorder) (form : Form) (operators : OperatorTable) : Reaction Recorder where
  refusal := recorder.refusal form.prototype.name
  backend := { recorder with forms := recorder.forms + 1 }
  operators := if recorder.entersOperators then operators.declare form.prototype else operators

def report (recorder : Recorder) (failure : Option Failure) : Recorder :=
  { recorder with reports := recorder.reports ++ [failure] }

instance : Backend Recorder where
  accept := accept
  report := report

end Recorder

end Kaleidoscope
