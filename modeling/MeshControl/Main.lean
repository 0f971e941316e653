import MeshControl.Archive.FileTree
import MeshControl.CommandLine.Report

/-!
# The program

Reads the arguments and the file they name, and prints the answer.
-/

open MeshControl

/-- The fault of the disk that a failure to read stands for, if it is one of those. Codes of the
system come with either sign. -/
def diskFault? : IO.Error → Option DiskFault
  | .noFileOrDirectory .. => some .notFound
  | .inappropriateType _ code _ =>
    some (if code = 21 ∨ code = -21 then .isDirectory else .notDirectory)
  | .invalidArgument .. => some .nameTooLong
  | _ => none

/-- The contents of a file, or the reason why it cannot be read. -/
def readContents (path : String) : IO (Except String Bytes) := do
  try
    let data ← IO.FS.readBinFile path
    return .ok data.toList
  catch
    | .permissionDenied .. => return .error "Permission denied (os error 13)"
    | failure => return .error (((diskFault? failure).map DiskFault.message).getD (toString failure))

/-- Answer the arguments of the program. -/
def main (arguments : List String) : IO UInt32 := do
  match CommandLine.Request.ofArguments arguments with
  | none => return 2
  | some request =>
    let contents ← match request.file? with
      | some path => readContents path
      | none => pure (.ok [])
    let report := request.answer contents
    IO.print report.output
    IO.eprint report.errors
    return report.status.toUInt32
