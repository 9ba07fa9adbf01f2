import SchemaLint.Text.Blank

/-! The files that a run can see, and how their names are followed. -/
namespace SchemaLint.CommandLine

/-- Why a file cannot be opened. -/
inductive OpenFault where
  | missing
  | directory
  /-- The name goes on after a file that is no directory. -/
  | notDirectory
  | nameTooLong
  deriving DecidableEq, Repr

def OpenFault.message : OpenFault → String
  | .missing => "No such file or directory"
  | .directory => "Is a directory"
  | .notDirectory => "Not a directory"
  | .nameTooLong => "File name too long"

/-- The standard input and the files by name. -/
structure Inputs where
  stdin : List UInt8
  file : String → Except OpenFault (List UInt8)

inductive Entry where
  | directory
  | file (bytes : List UInt8)
  deriving DecidableEq, Repr

/-- The entries of a working directory by their paths. The parents of an entry
are there without being listed. -/
structure WorkingDirectory where
  entries : List (List String × Entry) := []
  deriving DecidableEq, Repr

/-- A directory on the way along a name. Of those outside the working directory
nothing is known but that they are there. -/
inductive Place where
  | inside (path : List String)
  | outside
  deriving DecidableEq, Repr

namespace Place

def parent : Place → Place
  | .inside [] | .outside => .outside
  | .inside (step :: path) => .inside (step :: path).dropLast

end Place

/-- The steps of a name, which slashes divide. -/
def pathSteps (name : String) : List String :=
  (Text.pieces (· == '/') name.toList).map String.ofList

/-- The number of bytes that one step of a name may have. -/
def stepLimit : Nat := 255

/-- The number of bytes that a whole name may have. -/
def nameLimit : Nat := 4095

namespace WorkingDirectory

def find? (directory : WorkingDirectory) (path : List String) : Option Entry :=
  (directory.entries.lookup path).or
    (if directory.entries.any fun (other, _) => path.isPrefixOf other then some .directory
    else none)

/-- Follows the steps from a directory. Empty steps and single dots stay there. -/
def follow (directory : WorkingDirectory) : Place → List String → Except OpenFault (List UInt8)
  | _, [] => .error .directory
  | place, step :: rest =>
    if step = "" || step = "." then directory.follow place rest
    else if step = ".." then directory.follow place.parent rest
    else if step.utf8ByteSize > stepLimit then .error .nameTooLong
    else
      match place with
      | .outside => .error .missing
      | .inside path =>
        match directory.find? (path ++ [step]), rest with
        | none, _ => .error .missing
        | some .directory, rest => directory.follow (.inside (path ++ [step])) rest
        | some (.file bytes), [] => .ok bytes
        | some (.file _), _ :: _ => .error .notDirectory

/-- Opens a file. A name that begins with a slash does not begin here, and the
empty name is the name of nothing. -/
def openFile (directory : WorkingDirectory) (name : String) : Except OpenFault (List UInt8) :=
  if name = "" then .error .missing
  else if name.utf8ByteSize > nameLimit then .error .nameTooLong
  else directory.follow (if name.toList.head? = some '/' then .outside else .inside [])
    (pathSteps name)

def inputs (directory : WorkingDirectory) (stdin : List UInt8) : Inputs :=
  ⟨stdin, directory.openFile⟩

end WorkingDirectory
end SchemaLint.CommandLine
