/-
Opening files by path: the ways in which that fails, and a directory of named files in which a
path is followed part by part.
-/
namespace SceneScript.Console

/-- The ways in which the file at a path cannot be read. -/
inductive OpenFailure where
  | nothingThere
  | notADirectory
  | isADirectory
  | nameTooLong
  /-- The path holds a null character, which no name does. -/
  | nullInName
deriving Repr, DecidableEq

/-- The text of a failure. -/
def OpenFailure.reason : OpenFailure → String
  | nothingThere => "No such file or directory (os error 2)"
  | notADirectory => "Not a directory (os error 20)"
  | isADirectory => "Is a directory (os error 21)"
  | nameTooLong => "File name too long (os error 36)"
  | nullInName => "file name contained an unexpected NUL byte"

/-- A directory that holds named files and nothing else. -/
structure Directory where
  files : List (String × List UInt8)

/-- Where a path has led so far. -/
inductive Place where
  /-- The directory itself. -/
  | here
  /-- Some directory around it. -/
  | outside
  | file (bytes : List UInt8)

namespace Directory

/-- Follows one part of a path. An empty part and a single point stay where they are. -/
def enter (d : Directory) (place : Place) (part : String) : Except OpenFailure Place :=
  match place with
  | .file _ => .error .notADirectory
  | _ =>
    if part = "" ∨ part = "." then .ok place
    else if part = ".." then .ok .outside
    else if 255 < part.utf8ByteSize then .error .nameTooLong
    else
      match place, d.files.lookup part with
      | .here, some bytes => .ok (.file bytes)
      | _, _ => .error .nothingThere

/-- The bytes of the file at a path. A path that starts with a slash leads out of the
directory. -/
def read (d : Directory) (path : String) : Except OpenFailure (List UInt8) := do
  if path.toList.contains '\x00' then throw .nullInName
  if path = "" then throw .nothingThere
  if 4096 ≤ path.utf8ByteSize then throw .nameTooLong
  let start := if path.toList.head? = some '/' then Place.outside else Place.here
  match ← (path.splitOn "/").foldlM d.enter start with
  | .file bytes => return bytes
  | _ => throw .isADirectory

end Directory

end SceneScript.Console
