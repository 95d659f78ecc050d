/-
The arguments of the command line. They are read from left to right; a request for help is
answered as soon as it is met, and the first thing that is wrong ends the reading.
-/
namespace SceneScript.Console

/-- What the command line asks for. -/
inductive Request where
  | help
  | read (path : String) (strictGroups dump : Bool)
deriving Repr, DecidableEq

/-- The arguments understood so far. -/
structure Seen where
  path : Option String := none
  strictGroups : Bool := false
  dump : Bool := false
  /-- The options have ended; every further argument is a path. -/
  pathsOnly : Bool := false
deriving Repr, DecidableEq

namespace Seen

/-- Takes an argument as the path. There is one path, and it is not empty. -/
def takePath (seen : Seen) (argument : String) : Option Seen :=
  if seen.path.isSome ∨ argument = "" then none else some { seen with path := some argument }

/-- The request that the arguments make, if they make one. -/
def finish (seen : Seen) : Option Request :=
  seen.path.map fun path => .read path seen.strictGroups seen.dump

/-- What the arguments that are left make of those understood so far. A flag is given at most
once and takes no value; a single dash is a path. -/
def readOn (seen : Seen) : List String → Option Request
  | [] => seen.finish
  | argument :: rest =>
    if seen.pathsOnly then (seen.takePath argument).bind fun s => s.readOn rest
    else
      match argument.toList with
      | ['-', '-'] => { seen with pathsOnly := true }.readOn rest
      | '-' :: '-' :: flag =>
        if flag = "help".toList then some .help
        else if flag = "strict-groups".toList ∧ seen.strictGroups = false then
          { seen with strictGroups := true }.readOn rest
        else if flag = "dump".toList ∧ seen.dump = false then
          { seen with dump := true }.readOn rest
        else none
      | '-' :: 'h' :: _ => some .help
      | '-' :: _ :: _ => none
      | _ => (seen.takePath argument).bind fun s => s.readOn rest

end Seen

/-- The request that a command line makes, or nothing if it is not understood. -/
def Request.ofArguments (arguments : List String) : Option Request :=
  ({} : Seen).readOn arguments

end SceneScript.Console
