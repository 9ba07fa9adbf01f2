import SchemaLint.CommandLine.Run

/-! The command line program. -/
namespace SchemaLint.CommandLine

/-- Opens a file and reads it. Of a name that stands for a directory it is the
reading that fails, so the fault does not name the file. -/
def readFile (name : String) : IO (Except OpenFault (List UInt8)) := do
  try
    return .ok (← IO.FS.readBinFile name).toList
  catch
    | .noFileOrDirectory .. => return .error .missing
    | .inappropriateType none .. => return .error .directory
    | .inappropriateType (some _) .. => return .error .notDirectory
    | .invalidArgument (some _) .. => return .error .nameTooLong
    | fault => throw fault

/-- Opens the script. Standard input is only read once its bytes are asked for. -/
def openScript : Target → IO (Except UsageFault (IO (List UInt8)))
  | .stdin => return .ok (return (← (← IO.getStdin).readBinToEnd).toList)
  | .file name => return ((← readFile name).map pure).mapError (.unreadable name)

def finish (exit : Exit) : IO UInt32 := do
  IO.print exit.stdout
  IO.eprint exit.stderr
  return exit.code.toUInt32

end SchemaLint.CommandLine

open SchemaLint.CommandLine in
def main (arguments : List String) : IO UInt32 := do
  let streams : Streams := ⟨← (← IO.getStdout).isTty, ← (← IO.getStderr).isTty⟩
  match Options.prepare streams arguments with
  | .error exit => finish exit
  | .ok options =>
    match ← openScript options.target with
    | .error fault => finish (fault.exit streams "")
    | .ok bytes =>
      match options.linter streams with
      | .error exit => finish exit
      | .ok linter => finish (lintBytes streams options linter (← bytes))
