import Kaleidoscope.Number.Basic

set_option autoImplicit false

namespace Kaleidoscope

inductive Expr where
  | number (value : Number)
  | reference (name : String)
  | unary (symbol : Char) (operand : Expr)
  | binary (symbol : Char) (left right : Expr)
  | call (callee : String) (arguments : List Expr)
  | conditional (condition consequent alternative : Expr)
  /-- Counts `counter` from `start` on for as long as `stop` holds; `step` may be left out. -/
  | loop (counter : String) (start stop : Expr) (step : Option Expr) (body : Expr)
  /-- Binds names, each with an initial value or without one, in the order of the source. -/
  | scope (bindings : List (String × Option Expr)) (body : Expr)

namespace Expr

instance : Inhabited Expr := ⟨.number .zero⟩

mutual

/-- Whether two expressions are equal. -/
def equals : Expr → Expr → Bool
  | number a, number b => a.equals b
  | reference a, reference b => a == b
  | unary a x, unary b y => a == b && equals x y
  | binary a w x, binary b y z => a == b && equals w y && equals x z
  | call a xs, call b ys => a == b && equalsAll xs ys
  | conditional p q r, conditional x y z => equals p x && equals q y && equals r z
  | loop a p q s r, loop b x y t z =>
    a == b && equals p x && equals q y && equalsOptional s t && equals r z
  | scope bs x, scope cs y => equalsBindings bs cs && equals x y
  | _, _ => false
termination_by structural left => left

def equalsAll : List Expr → List Expr → Bool
  | [], [] => true
  | x :: xs, y :: ys => equals x y && equalsAll xs ys
  | _, _ => false
termination_by structural left => left

def equalsOptional : Option Expr → Option Expr → Bool
  | none, none => true
  | some x, some y => equals x y
  | _, _ => false
termination_by structural left => left

def equalsBindings : List (String × Option Expr) → List (String × Option Expr) → Bool
  | [], [] => true
  | (a, x) :: bs, (b, y) :: cs => a == b && equalsOptional x y && equalsBindings bs cs
  | _, _ => false
termination_by structural left => left

end

end Expr

end Kaleidoscope
