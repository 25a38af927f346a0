set_option autoImplicit false

namespace Kaleidoscope

structure Position where
  source : String
  line : UInt32
  column : UInt32
  deriving DecidableEq

namespace Position

/-- The position of a failure that no input source is to blame for. -/
def nowhere : Position := ⟨"<null>", 0, 0⟩

def text (position : Position) : String :=
  position.source ++ ":" ++ toString position.line.toNat ++ ":" ++ toString position.column.toNat

end Position

/-- The characters from `start` up to, and without, the one at `stop`. -/
structure Span where
  start : Position
  stop : Position
  deriving DecidableEq

end Kaleidoscope
