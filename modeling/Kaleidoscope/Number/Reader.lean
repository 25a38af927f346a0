import Kaleidoscope.Number.Decimal

set_option autoImplicit false

/- A numeral of the language is a run of digits and points: it is cut before its second point, and
what is left counts as zero if it is not a written form. -/

namespace Kaleidoscope

/-- The row split after its leading decimal digits. -/
def spanDigits (row : List Char) : List Char × List Char :=
  (row.takeWhile Char.isDigit, row.dropWhile Char.isDigit)

/-- An optional sign; true for a minus. -/
def readSign : List Char → Bool × List Char
  | '-' :: rest => (true, rest)
  | '+' :: rest => (false, rest)
  | rest => (false, rest)

/-- The exponent part that ends a written form: nothing, or a mark with at least one digit. -/
def readExponent? : List Char → Option Int
  | [] => some 0
  | mark :: rest =>
    if mark = 'e' ∨ mark = 'E' then
      let (negative, row) := readSign rest
      if row.isEmpty || !row.all Char.isDigit then none
      else if negative then some (-(Decimal.ofDigits row : Int))
      else some (Decimal.ofDigits row)
    else none

/-- A decimal without a sign: digits with at most one point, and an exponent. -/
def Decimal.ofCharacters? (row : List Char) : Option Decimal :=
  let (whole, afterWhole) := spanDigits row
  let (fraction, afterFraction) :=
    match afterWhole with
    | '.' :: rest => spanDigits rest
    | rest => ([], rest)
  if whole.isEmpty && fraction.isEmpty then none
  else (readExponent? afterFraction).map fun exponent =>
    ⟨Decimal.ofDigits (whole ++ fraction), exponent - fraction.length⟩

/-- The number that a written form stands for. -/
def Number.ofCharacters? (row : List Char) : Option Number :=
  let (negative, rest) := readSign row
  let word := rest.map Char.toLower
  if word = "inf".toList ∨ word = "infinity".toList then some (.signed negative .infinity)
  else if word = "nan".toList then some .nan
  else (Decimal.ofCharacters? rest).map fun decimal => .signed negative decimal.nearest

def Number.ofText? (text : String) : Option Number :=
  Number.ofCharacters? text.toList

/-- The row up to its second point; `seen` tells whether the first has passed. -/
def beforeSecondPoint (seen : Bool) : List Char → List Char
  | [] => []
  | c :: rest =>
    if c = '.' then
      if seen then [] else c :: beforeSecondPoint true rest
    else c :: beforeSecondPoint seen rest

/-- The number that a numeral stands for. -/
def Number.ofNumeral (row : List Char) : Number :=
  (Number.ofCharacters? (beforeSecondPoint false row)).getD .zero

end Kaleidoscope
