set_option autoImplicit false

/- A line that cannot be read is lost whole together with all that follows: one that is not valid
UTF-8, or an unfinished last line whose reading breaks off. -/

namespace Kaleidoscope

/-- Why an input ended early. -/
inductive ReadError where
  | invalidUtf8
  | broken (message : String)
  deriving DecidableEq

def ReadError.message : ReadError → String
  | invalidUtf8 => "stream did not contain valid UTF-8"
  | broken message => message

structure Input where
  lines : List (List Char)
  failure : Option ReadError
  deriving DecidableEq

namespace Input

/-- Cuts a sequence after every occurrence of `feed`. The last piece has none and may be empty. -/
def cut {α : Type} [DecidableEq α] (feed : α) : List α → List (List α) × List α
  | [] => ([], [])
  | item :: rest =>
    match cut feed rest with
    | (lines, last) =>
      if item = feed then ([item] :: lines, last)
      else match lines with
        | [] => ([], item :: last)
        | line :: lines => ((item :: line) :: lines, last)

/-- The characters of a UTF-8 sequence of bytes. -/
def decode? (bytes : List UInt8) : Option (List Char) :=
  (String.fromUTF8? ⟨bytes.toArray⟩).map String.toList

/-- Decodes lines up to the first that is not valid; `final` is what ends the input after them. -/
def decodeLines (final : Input) : List (List UInt8) → Input
  | [] => final
  | bytes :: rest =>
    match decode? bytes with
    | none => ⟨[], some .invalidUtf8⟩
    | some line =>
      let tail := decodeLines final rest
      ⟨line :: tail.lines, tail.failure⟩

/-- The input read from bytes, after which reading either ends or breaks with a message. -/
def ofBytes (bytes : List UInt8) (broken : Option String) : Input :=
  let (lines, last) := cut 0x0A bytes
  match broken with
  | some message => decodeLines ⟨[], some (.broken message)⟩ lines
  | none =>
    if last.isEmpty then decodeLines ⟨[], none⟩ lines
    else decodeLines ⟨[], none⟩ (lines ++ [last])

/-- The input read from text, after which reading either ends or breaks with a message. -/
def ofText (text : String) (broken : Option String) : Input :=
  let (lines, last) := cut '\n' text.toList
  match broken with
  | some message => ⟨lines, some (.broken message)⟩
  | none => ⟨if last.isEmpty then lines else lines ++ [last], none⟩

end Input

end Kaleidoscope
