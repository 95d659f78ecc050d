/-
The arguments of a command, read from left to right. A reader takes words off the front; a word
that is no number is gone once it has been refused, and reading past the last word takes nothing.
-/
import SceneScript.Space.Matrix
import SceneScript.Number.Numeral
import SceneScript.Script.Attempt
namespace SceneScript.Script

open Space Number

/-- The words of a line behind its command, some of them already taken. -/
structure Arguments where
  line : Nat
  command : String
  /-- How many words have been taken. -/
  taken : Nat
  /-- The words not taken yet. -/
  rest : List String
deriving Repr, DecidableEq

/-- The arguments of a line before any is read. -/
def Arguments.ofWords (line : Nat) (command : String) (words : List String) : Arguments :=
  ⟨line, command, 0, words⟩

/-- A computation that reads arguments. -/
abbrev Reader := Attempt Arguments

namespace Reader

/-- The next word. -/
def word : Reader String := fun args =>
  match args.rest with
  | [] => (.error (.missingArgument args.line args.command (args.taken + 1)), args)
  | w :: rest => (.ok w, { args with taken := args.taken + 1, rest })

/-- The next word as a value of a type. -/
def value (β : Type) [FromWord β] : Reader β := do
  let w ← word
  match ofWord? w with
  | some b => pure b
  | none =>
    let args ← get
    throw (.notANumber args.line args.command w)

/-- The next three words as numbers. -/
def vector (α : Type) [FromWord α] : Reader (Vec3 α) := do
  let x ← value α
  let y ← value α
  let z ← value α
  pure ⟨x, y, z⟩

/-! ## What a reader takes -/

variable {β : Type} [FromWord β] (line : Nat) (command : String) (taken : Nat)
  (rest : List String)

theorem word_cons (w : String) :
    word ⟨line, command, taken, w :: rest⟩ = (.ok w, ⟨line, command, taken + 1, rest⟩) := rfl

/-- Past the last word nothing is taken. -/
theorem value_nil :
    value β ⟨line, command, taken, []⟩ =
      (.error (.missingArgument line command (taken + 1)), ⟨line, command, taken, []⟩) := rfl

/-- A word that stands for a value is taken and gives it. -/
theorem value_cons_of_some {w : String} {b : β} (h : ofWord? w = some b) :
    value β ⟨line, command, taken, w :: rest⟩ =
      (.ok b, ⟨line, command, taken + 1, rest⟩) := by
  rw [value, Attempt.bind_of_ok (word_cons ..), h]
  rfl

/-- A word that stands for no value is taken too. -/
theorem value_cons_of_none {w : String} (h : (ofWord? w : Option β) = none) :
    value β ⟨line, command, taken, w :: rest⟩ =
      (.error (.notANumber line command w), ⟨line, command, taken + 1, rest⟩) := by
  rw [value, Attempt.bind_of_ok (word_cons ..), h]
  rfl

end Reader

end SceneScript.Script
