/-
The commands of the language. A command is a row of steps, each of which reads its arguments and
is carried out before the next one reads; only `view` has more than one, so only `view` can have
done something when a later argument is wrong.
-/
import SceneScript.Script.Arguments
import SceneScript.Script.Directive
namespace SceneScript.Script

open Space

/-! ## Actions -/

/-- A workspace together with the arguments of the line that is being carried out. -/
structure Execution (α : Type) where
  arguments : Arguments
  workspace : Workspace α

/-- A computation that reads arguments and changes the workspace. -/
abbrev Performing (α : Type) := Attempt (Execution α)

/-- What a word of the vocabulary does. -/
abbrev Action (α : Type) := Performing α Unit

namespace Performing

variable {α β : Type}

/-- Reads arguments. -/
def read (reader : Reader β) : Performing α β := fun e =>
  let (result, arguments) := reader e.arguments
  (result, { e with arguments })

/-- Carries out a directive, unless it is refused. -/
def carryOut [Scalar α] (d : Directive α) : Performing α Unit := fun e =>
  match d.fault? e.arguments.line e.workspace.frames with
  | some fault => (.error fault, e)
  | none => (.ok (), { e with workspace := d.apply e.workspace })

/-- Reads a directive and carries it out. -/
def step [Scalar α] (reader : Reader (Directive α)) : Performing α Unit := do
  let d ← read reader
  carryOut d

/-- A step whose arguments are wrong only takes words. -/
theorem step_of_error [Scalar α] {reader : Reader (Directive α)} {e : Execution α}
    {arguments : Arguments} {fault : Fault}
    (h : reader e.arguments = (.error fault, arguments)) :
    step reader e = (.error fault, { e with arguments }) :=
  Attempt.bind_of_error (by simp [read, h]) _

/-- A step whose arguments are right carries its directive out. -/
theorem step_of_ok [Scalar α] {reader : Reader (Directive α)} {e : Execution α}
    {arguments : Arguments} {d : Directive α}
    (h : reader e.arguments = (.ok d, arguments)) :
    step reader e = carryOut d { e with arguments } :=
  Attempt.bind_of_ok (by simp [read, h]) _

end Performing

/-! ## Commands -/

/-- The commands. -/
inductive Command where
  | view
  | background
  | ambient
  | light
  | group
  | groupend
  | sphere
  | material
  | refraction
  | move
  | scale
  | rotate
  | texture
deriving Repr, DecidableEq

namespace Command

/-- Every command once. -/
def all : List Command :=
  [view, background, ambient, light, group, groupend, sphere, material, refraction, move, scale,
    rotate, texture]

theorem mem_all (c : Command) : c ∈ all := by cases c <;> decide

/-- The word that stands for a command. -/
def name : Command → String
  | view => "view"
  | background => "background"
  | ambient => "ambient"
  | light => "light"
  | group => "group"
  | groupend => "groupend"
  | sphere => "sphere"
  | material => "material"
  | refraction => "refraction"
  | move => "move"
  | scale => "scale"
  | rotate => "rotate"
  | texture => "texture"

variable {α : Type} [Scalar α] [Number.FromWord α]

open Reader in
/-- The steps of a command. A light's colour stands before its position, a rotation's angle
before its axis. Textures are accepted and have no effect. -/
def steps : Command → List (Reader (Directive α))
  | view => [return .imageSize (← value Int32), return .cornerDistance (← value α)]
  | background => [return .background (← vector α)]
  | ambient => [return .ambient (← vector α)]
  | light => [do
    let color ← vector α
    let position ← vector α
    return .light { position, color }]
  | group => [return .openGroup]
  | groupend => [return .closeGroup]
  | sphere => [return .sphere]
  | material => [do
    let diffuse ← vector α
    let specular ← vector α
    let shininess ← value α
    return .material (.ofSurface diffuse specular shininess)]
  | refraction => [do
    let color ← vector α
    let index ← value α
    return .refraction color index]
  | move => [return .move (← vector α)]
  | scale => [return .scale (← vector α)]
  | rotate => [do
    let degrees ← value α
    let axis ← vector α
    return .rotate degrees axis]
  | texture => [return .skip]

/-- The steps of a command, one after the other. -/
def action (c : Command) : Action α := c.steps.forM Performing.step

end Command

end SceneScript.Script
