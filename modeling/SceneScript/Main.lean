/-
The program: reads the file that the command line names and prints what comes of it.
-/
import SceneScript.Console.Directory
import SceneScript.Console.Outcome
namespace SceneScript.Console

/-- The text of a failure that the system reports. Its number may come with either sign. -/
def systemReason (error : IO.Error) : String :=
  match error with
  | .noFileOrDirectory .. => OpenFailure.reason .nothingThere
  | .permissionDenied .. => "Permission denied (os error 13)"
  | .inappropriateType _ code _ =>
    OpenFailure.reason (if code = 20 ∨ 0 - code = 20 then .notADirectory else .isADirectory)
  | .invalidArgument _ code _ =>
    if code = 36 ∨ 0 - code = 36 then OpenFailure.reason .nameTooLong else toString error
  | _ => toString error

/-- What the file at a path holds, or why it cannot be read. -/
def contentsOf (path : String) : IO (Except String (List UInt8)) := do
  if path.toList.contains '\x00' then return .error (OpenFailure.reason .nullInName)
  try
    let bytes ← IO.FS.readBinFile path
    return .ok bytes.data.toList
  catch error => return .error (systemReason error)

end SceneScript.Console

open SceneScript.Console

def main (arguments : List String) : IO UInt32 := do
  let held ← match Request.ofArguments arguments with
    | some (.read path _ _) => contentsOf path
    | _ => pure (.ok [])
  let result := outcome (fun _ => held) arguments
  IO.eprint result.stderr
  IO.print result.stdout
  return result.exitCode.toUInt32
