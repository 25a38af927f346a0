import Kaleidoscope.Number.Decimal

set_option autoImplicit false

/- On the grid of decimals with a given number of digits only the two neighbours of a value can be
nearest to it. -/

namespace Kaleidoscope.Magnitude

/-- The number of the place after the point where the first digit of a fraction below one stands
that is not zero, if it is among the first `tries` places. -/
def firstPlace (denominator : Nat) : (tries : Nat) → (numerator : Nat) → Nat
  | 0, _ => 0
  | tries + 1, numerator =>
    if denominator ≤ numerator then 0 else firstPlace denominator tries (10 * numerator) + 1

/-- The power of ten of the leading decimal digit of a positive finite magnitude. Every positive
magnitude is at least `10 ^ (-324)`. -/
def leadingPlace (magnitude : Magnitude) : Int :=
  if magnitude.floor = 0 then -(firstPlace (Nat.pow 2 1074) 324 magnitude.units : Int)
  else (Decimal.digits magnitude.floor).length - 1

/-- Whether rounding the decimal gives the magnitude. -/
def readsBack (magnitude : Magnitude) (decimal : Decimal) : Bool :=
  decimal.nearest == magnitude

/-- The decimal on the grid of spacing `10 ^ place` that reads back and is closest to the
magnitude, if there is one. -/
def onGrid? (magnitude : Magnitude) (place : Int) : Option Decimal :=
  let numerator := magnitude.units * Nat.pow 10 (-place).toNat
  let denominator := Nat.pow 2 1074 * Nat.pow 10 place.toNat
  let lower : Decimal := ⟨numerator / denominator, place⟩
  let upper : Decimal := ⟨numerator / denominator + 1, place⟩
  let upperIsCloser : Bool := denominator ≤ 2 * (numerator % denominator)
  if magnitude.readsBack upper && (upperIsCloser || !magnitude.readsBack lower) then some upper
  else if magnitude.readsBack lower then some lower
  else none

/-- All digits of the magnitude. -/
def exactly (magnitude : Magnitude) : Decimal :=
  ⟨magnitude.units * Nat.pow 5 1074, -1074⟩

/-- Tries ever finer grids, `tries` of them, from the one of spacing `10 ^ place` on. -/
def shortestFrom (magnitude : Magnitude) (place : Int) : (tries : Nat) → Decimal
  | 0 => magnitude.exactly
  | tries + 1 =>
    match magnitude.onGrid? place with
    | some decimal => decimal
    | none => magnitude.shortestFrom (place - 1) tries

/-- The shortest decimal that reads back as the magnitude. Seventeen digits are always enough. -/
def shortest (magnitude : Magnitude) : Decimal :=
  if magnitude = zero then ⟨0, 0⟩ else magnitude.shortestFrom magnitude.leadingPlace 17

end Kaleidoscope.Magnitude
