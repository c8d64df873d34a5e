import Famiclone.CommandLine

/-!
# The program

Arguments and files come in, text and an exit code go out.
-/
namespace Famiclone

def readFault : IO.Error → String
  | .noFileOrDirectory .. => "No such file or directory (os error 2)"
  | .permissionDenied .. => "Permission denied (os error 13)"
  | .inappropriateType .. => "Is a directory (os error 21)"
  | e => toString e

def contentsOf (path : String) : IO (Except String (Array UInt8)) := do
  try
    return .ok (← IO.FS.readBinFile path).data
  catch e =>
    return .error (readFault e)

end Famiclone

open Famiclone in
/-- Run the program. The file is read only if the arguments name one. -/
def main (args : List String) : IO UInt32 := do
  let contents ← match CommandLine.parse args with
    | .ok (some o) => contentsOf o.rom
    | _ => pure (.error "")
  let report := CommandLine.run args fun _ => contents
  IO.print report.output
  IO.eprint report.errors
  return UInt32.ofNat report.code
