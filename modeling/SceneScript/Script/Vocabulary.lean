/-
The vocabulary: which word does what. A word has at most one meaning, the one given to it last.
-/
import SceneScript.Script.Command
namespace SceneScript.Script

open Space

/-- Words and what they do; an earlier entry hides the later ones with its word. -/
structure Vocabulary (α : Type) where
  entries : List (String × Action α)

namespace Vocabulary

variable {α : Type}

/-- What a word does, if it does anything. -/
def find? (v : Vocabulary α) (word : String) : Option (Action α) := v.entries.lookup word

/-- Gives a word a meaning, in place of the one that it may have had. -/
def define (v : Vocabulary α) (word : String) (action : Action α) : Vocabulary α :=
  ⟨(word, action) :: v.entries⟩

/-- The commands under their own names. -/
def standard [Scalar α] [Number.FromWord α] : Vocabulary α :=
  ⟨Command.all.map fun c => (c.name, c.action)⟩

theorem find?_define_self (v : Vocabulary α) (word : String) (action : Action α) :
    (v.define word action).find? word = some action := by
  simp [find?, define]

theorem find?_define_of_ne (v : Vocabulary α) {word other : String} (h : other ≠ word)
    (action : Action α) : (v.define word action).find? other = v.find? other := by
  simp [find?, define, List.lookup_cons, beq_false_of_ne h]

/-- Every command is found under its name. -/
theorem find?_standard_name [Scalar α] [Number.FromWord α] (c : Command) :
    (standard : Vocabulary α).find? c.name = some c.action := by
  cases c <;> rfl

end Vocabulary

end SceneScript.Script
