/-
What can be wrong with a script, and how it is said. Lines and argument positions count from one.
-/
namespace SceneScript.Script

/-- The causes for which a script is refused. -/
inductive Fault where
  /-- The file could not be opened, or what it holds is not text. -/
  | unreadable (path reason : String)
  /-- The words of a line end before the argument at a position. -/
  | missingArgument (line : Nat) (command : String) (position : Nat)
  /-- An argument is not a number of the kind that the command takes. -/
  | notANumber (line : Nat) (command word : String)
  /-- A rotation has no axis to turn about. -/
  | noAxis (line : Nat)
  /-- A group ends that was never opened. -/
  | unmatchedGroupEnd (line : Nat)
  /-- The script ends with groups open, and that is not tolerated. -/
  | openGroups (count : Nat)
deriving Repr, DecidableEq

namespace Fault

/-- The text that describes a fault to a reader. -/
def message : Fault → String
  | unreadable path reason => s!"cannot read scene file {path}: {reason}"
  | missingArgument line command position =>
    s!"line {line}: `{command}` is missing argument {position}"
  | notANumber line command word => s!"line {line}: `{command}` expects a number, got `{word}`"
  | noAxis line => s!"line {line}: rotation axis has zero length"
  | unmatchedGroupEnd line => s!"line {line}: groupend without a matching group"
  | openGroups count => s!"{count} group(s) still open at end of file"

/-- The line that a fault belongs to, if it belongs to one. -/
def line? : Fault → Option Nat
  | missingArgument line _ _ | notANumber line _ _ | noAxis line | unmatchedGroupEnd line =>
    some line
  | unreadable _ _ | openGroups _ => none

/-- The failure outside the script that a fault reports, if there was one. -/
def reason? : Fault → Option String
  | unreadable _ reason => some reason
  | _ => none

end Fault

end SceneScript.Script
