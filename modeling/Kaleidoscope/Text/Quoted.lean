import Kaleidoscope.Text.GraphemeExtend
import Kaleidoscope.Text.Unprintable

set_option autoImplicit false

namespace Kaleidoscope.Text

/-- Whether the code point lies in one of the ranges. -/
def inRanges (ranges : List (Nat × Nat)) (point : Nat) : Bool :=
  ranges.any fun (first, last) => decide (first ≤ point) && decide (point ≤ last)

def isGraphemeExtend (c : Char) : Bool :=
  inRanges graphemeExtendRanges c.toNat

def isUnprintable (c : Char) : Bool :=
  inRanges unprintableRanges c.toNat

/-- The grapheme extenders that are letters: the halfwidth sound marks, which take up a place of
their own. -/
def isSoundMark (c : Char) : Bool :=
  c == '\uff9e' || c == '\uff9f'

/-- The letters that show nothing: the fillers in place of a Hangul letter, which a display is to
ignore. -/
def isFiller (c : Char) : Bool :=
  c == '\u115f' || c == '\u1160' || c == '\u3164' || c == '\uffa0'

/-- Whether the character would not be seen on its own. -/
def isHidden (c : Char) : Bool :=
  (isGraphemeExtend c && !isSoundMark c) || isUnprintable c || isFiller c

/-- The escape by code point: lower-case hexadecimal digits without padding, in braces. -/
def codePointEscape (c : Char) : List Char :=
  "\\u\x7b".toList ++ Nat.toDigits 16 c.toNat ++ ['\x7d']

/-- One character inside quotes of the given kind. -/
def escape (quote : Char) (c : Char) : List Char :=
  if c = '\x00' then ['\\', '0']
  else if c = '\t' then ['\\', 't']
  else if c = '\r' then ['\\', 'r']
  else if c = '\n' then ['\\', 'n']
  else if c = '\\' ∨ c = quote then ['\\', c]
  else if isHidden c then codePointEscape c
  else [c]

/-- The characters between quotes of the given kind. -/
def quote (mark : Char) (content : List Char) : String :=
  String.ofList (mark :: content.flatMap (escape mark) ++ [mark])

/-- A character in single quotes. -/
def quoteChar (c : Char) : String :=
  quote '\x27' [c]

/-- A string in double quotes. -/
def quoteString (text : String) : String :=
  quote '\x22' text.toList

end Kaleidoscope.Text
