-- SUMMARY: The command as a program.
import CSubset.CommandLine.Run

/-!
# The program

Reads the file that the command asks for, prints what the command prints, and ends as
the command ends. Everything else is decided by `CommandLine.run`.
-/

namespace CSubset.CommandLine

/-- The code of the system for an attempt to read a directory. -/
def isDirectoryCode : UInt32 := 21

/-- Reads a file from disk. -/
def readFromDisk (path : String) : IO FileContent := do
  try
    return .ofBytes (← IO.FS.readBinFile path)
  catch
    | .inappropriateType _ code _ => return if code = isDirectoryCode then .directory else .missing
    | .permissionDenied .. => return .denied
    | _ => return .missing

end CSubset.CommandLine

open CSubset CommandLine in
/-- Runs the command on the arguments of the program. -/
def main (args : List String) : IO UInt32 := do
  let content ← match fileArgument? args with
    | some file => readFromDisk file
    | none => pure .missing
  let outcome := run (fun _ => content) args
  IO.print outcome.output
  IO.eprint outcome.errors
  return UInt32.ofNat outcome.exitCode
