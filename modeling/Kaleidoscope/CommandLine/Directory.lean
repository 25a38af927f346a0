import Kaleidoscope.Input

set_option autoImplicit false

/- The files below the directory that a path starts from, and below the root. What lies outside of
both is taken to hold no files. -/

namespace Kaleidoscope.CommandLine

/-- Why a path cannot be opened. -/
inductive OpenError where
  | missing
  | notADirectory
  | nameTooLong
  deriving DecidableEq

def OpenError.message : OpenError → String
  | missing => "No such file or directory (os error 2)"
  | notADirectory => "Not a directory (os error 20)"
  | nameTooLong => "File name too long (os error 36)"

/-- The most bytes in a name that can be looked up. -/
def nameLimit : Nat := 255

/-- The most bytes in a path that can be followed. -/
def pathLimit : Nat := 4095

/-- The parts of a path between its slashes. -/
def components (path : String) : List String :=
  path.splitOn "/"

/-- The name of the file that a path leads to: its last part that is a name. A path that ends in
`..`, or has no name in it, is shown as it is. -/
def displayName (path : String) : String :=
  match ((components path).filter fun part => part ≠ "" ∧ part ≠ ".").getLast? with
  | some name => if name = ".." then path else name
  | none => path

/-- A file below a directory: the names that lead to it, and its bytes. -/
structure File where
  place : List String
  contents : List UInt8
  deriving DecidableEq

structure Directory where
  files : List File
  deriving DecidableEq

namespace Directory

def ofFiles (files : List (String × List UInt8)) : Directory :=
  ⟨files.map fun (path, contents) =>
    ⟨(components path).filter fun part => part ≠ "" ∧ part ≠ ".", contents⟩⟩

/-- The files of the system itself, by their places below the root: the null device, which is empty,
and standard input. -/
def devices (standardInput : List UInt8) : Directory :=
  ⟨[⟨["dev", "null"], []⟩, ⟨["dev", "stdin"], standardInput⟩]⟩

end Directory

/-- Where a path can start. -/
inductive Start where
  | working
  | root
  deriving DecidableEq

/-- What a path can lead to. -/
inductive Place where
  | inside (start : Start) (names : List String)
  | outside
  | file (contents : List UInt8)
  deriving DecidableEq

structure FileSystem where
  /-- The directory that a path starts from. -/
  working : Directory
  /-- The directory that a path with a leading slash starts from. -/
  root : Directory
  deriving DecidableEq

namespace FileSystem

/-- The directory at a start. -/
def directory (system : FileSystem) : Start → Directory
  | .working => system.working
  | .root => system.root

/-- What a name leads to in the directory at `names`. -/
def enter (system : FileSystem) (start : Start) (names : List String) (name : String) :
    Except OpenError Place :=
  let place := names ++ [name]
  let files := (system.directory start).files
  match files.find? fun file => file.place == place with
  | some file => .ok (.file file.contents)
  | none =>
    if files.any fun file => place.isPrefixOf file.place then .ok (.inside start place)
    else .error .missing

/-- The directory that holds the one at `names`. The root holds itself. -/
def parent (start : Start) (names : List String) : Place :=
  if names.isEmpty then
    match start with
    | .working => .outside
    | .root => .inside .root []
  else .inside start names.dropLast

/-- Follows one part of a path. A name is looked up only in a directory, and only then is it too
long. -/
def follow (system : FileSystem) (place : Place) (part : String) : Except OpenError Place :=
  match place with
  | .file _ => .error .notADirectory
  | .outside =>
    if part = "" ∨ part = "." ∨ part = ".." then .ok .outside
    else if nameLimit < part.utf8ByteSize then .error .nameTooLong
    else .error .missing
  | .inside start names =>
    if part = "" ∨ part = "." then .ok place
    else if part = ".." then .ok (parent start names)
    else if nameLimit < part.utf8ByteSize then .error .nameTooLong
    else system.enter start names part

/-- Follows a path from the start that its first character gives. -/
def resolve (system : FileSystem) (path : String) : Except OpenError Place :=
  if pathLimit < path.utf8ByteSize then .error .nameTooLong
  else
    let start := if path.startsWith "/" then Start.root else .working
    (components path).foldlM system.follow (.inside start [])

/-- The failure of reading a directory as a file. -/
def isADirectory : ReadError := .broken "Is a directory (os error 21)"

/-- The input that a path leads to. A directory can be opened, and then not be read. -/
def openInput (system : FileSystem) (path : String) : Except OpenError Input := do
  match ← system.resolve path with
  | .file contents => return .ofBytes contents none
  | _ => return ⟨[], some isADirectory⟩

end FileSystem

end Kaleidoscope.CommandLine
