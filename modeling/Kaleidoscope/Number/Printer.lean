import Kaleidoscope.Number.Shortest

set_option autoImplicit false

namespace Kaleidoscope

/-- The row without the zeros at its end. -/
def dropTrailingZeros (row : List Char) : List Char :=
  (row.reverse.dropWhile (· == '0')).reverse

/-- The decimal written out in full, without an exponent. -/
def Decimal.positional (decimal : Decimal) : List Char :=
  let row := Decimal.digits decimal.coefficient
  if decimal.exponent ≥ 0 then
    if decimal.coefficient = 0 then ['0'] else row ++ List.replicate decimal.exponent.toNat '0'
  else
    let places := (-decimal.exponent).toNat
    let padded := List.replicate (places + 1 - row.length) '0' ++ row
    let whole := padded.take (padded.length - places)
    let fraction := dropTrailingZeros (padded.drop (padded.length - places))
    if fraction.isEmpty then whole else whole ++ '.' :: fraction

def Magnitude.characters (magnitude : Magnitude) : List Char :=
  if magnitude.isInfinite then "inf".toList else magnitude.shortest.positional

/-- The written form of a number. -/
def Number.characters : Number → List Char
  | .nan => "NaN".toList
  | .signed false magnitude => magnitude.characters
  | .signed true magnitude => '-' :: magnitude.characters

def Number.text (number : Number) : String :=
  String.ofList number.characters

end Kaleidoscope
