import Kaleidoscope.Grammar.Form

set_option autoImplicit false

/- A backend decides whether a form is used, and it alone changes the operators in force. -/

namespace Kaleidoscope

/-- What a backend makes of a form. -/
structure Reaction (β : Type) where
  /-- Why the form is refused, if it is. -/
  refusal : Option Failure
  backend : β
  operators : OperatorTable

class Backend (β : Type) where
  /-- Takes one form, with the operators in force. -/
  accept : β → Form → OperatorTable → Reaction β
  /-- Takes note of a failure; without one the input ended in the middle of a form. -/
  report : β → Option Failure → β

end Kaleidoscope
