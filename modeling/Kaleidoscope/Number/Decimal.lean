import Kaleidoscope.Number.Basic

set_option autoImplicit false

namespace Kaleidoscope

/-- The natural number nearest to `numerator / denominator`; a half goes to the even neighbour. -/
def roundHalfEven (numerator denominator : Nat) : Nat :=
  let whole := numerator / denominator
  let twice := 2 * (numerator % denominator)
  if twice < denominator ∨ (twice = denominator ∧ whole % 2 = 0) then whole else whole + 1

/-- The magnitude nearest to `numerator / denominator`. The fraction is counted in units of
`2 ^ (-1074)`; when the count has more than 53 binary digits, only its leading 53 are kept. -/
def Magnitude.nearest (numerator denominator : Nat) : Magnitude :=
  let scaled := numerator * Nat.pow 2 1074
  let dropped := (scaled / denominator).log2 - 52
  .ofRank (dropped * Nat.pow 2 52 + roundHalfEven scaled (denominator * Nat.pow 2 dropped))

/-- The value `coefficient * 10 ^ exponent`. -/
structure Decimal where
  coefficient : Nat
  exponent : Int
  deriving DecidableEq

namespace Decimal

/-- The decimal digits of a natural number, most significant first. -/
def digits (value : Nat) : List Char :=
  Nat.toDigits 10 value

/-- The natural number that a row of decimal digits spells. -/
def ofDigits (row : List Char) : Nat :=
  row.foldl (fun value digit => 10 * value + (digit.toNat - '0'.toNat)) 0

/-- The magnitude nearest to a decimal. A decimal of more than 310 places before the point is past
every finite value, and one that starts more than 330 places after the point is nearer to zero than
to the smallest positive value, so neither needs its power of ten. -/
def nearest (decimal : Decimal) : Magnitude :=
  let leading : Int := (digits decimal.coefficient).length + decimal.exponent
  if decimal.coefficient = 0 then .zero
  else if leading > 310 then .infinity
  else if leading < -330 then .zero
  else if decimal.exponent ≥ 0 then
    .nearest (decimal.coefficient * Nat.pow 10 decimal.exponent.toNat) 1
  else
    .nearest decimal.coefficient (Nat.pow 10 (-decimal.exponent).toNat)

end Decimal

/-- The number nearest to a natural number. -/
def Number.ofNat (value : Nat) : Number :=
  .signed false (.nearest value 1)

end Kaleidoscope
