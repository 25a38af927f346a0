import Kaleidoscope.CommandLine.Run

set_option autoImplicit false

namespace Kaleidoscope.CommandLine

/-- The text of a system error. -/
def systemMessage (error : IO.Error) : String :=
  match error with
  | .noFileOrDirectory _ code details => details ++ " (os error " ++ toString code.toNat ++ ")"
  | .inappropriateType _ code details => details ++ " (os error " ++ toString code.toNat ++ ")"
  | .permissionDenied _ code details => details ++ " (os error " ++ toString code.toNat ++ ")"
  | .invalidArgument _ code details => details ++ " (os error " ++ toString code.toNat ++ ")"
  | other => toString other

def readStandardInput : IO Input := do
  let stream ← IO.getStdin
  let mut bytes := ByteArray.empty
  let mut more := true
  while more do
    let chunk ← stream.read 65536
    bytes := bytes ++ chunk
    more := !chunk.isEmpty
  return .ofBytes bytes.toList none

/-- Reads an opened file; a failure of the system ends the input. -/
def readHandle (handle : IO.FS.Handle) : IO Input := do
  try
    return .ofBytes (← handle.readBinToEnd).toList none
  catch error => return ⟨[], some (.broken (systemMessage error))⟩

/-- Runs before anything is written, so nothing here limits the output. -/
def runSettings (settings : Settings) : IO Report := do
  match settings.file with
  | none => return settings.run .unlimited (← readStandardInput) (← (← IO.getStdin).isTty)
  | some path =>
    try
      let handle ← IO.FS.Handle.mk path .read
      return settings.run .unlimited (← readHandle handle) false
    catch error => return unopened path (systemMessage error)

end Kaleidoscope.CommandLine

open Kaleidoscope.CommandLine in
/-- The command line. -/
def main (arguments : List String) : IO UInt32 := do
  let report ← match Settings.ofArguments arguments with
    | .error stop => pure stop.report
    | .ok settings => runSettings settings
  IO.print report.output
  IO.eprint report.errors
  return report.exitCode.toUInt32
