/-
Directives: commands with their arguments read. A directive is refused, which the frames alone
decide, or it acts on the scene and on the frames.
-/
import SceneScript.Space.Transform
import SceneScript.Script.Fault
import SceneScript.Script.Frames
namespace SceneScript.Script

open Space

/-- What a script has built so far: the scene, and the frames that later objects are placed by. -/
structure Workspace (α : Type) where
  scene : Scene α
  frames : Frames α
deriving Repr

/-- A workspace before the first line. -/
def Workspace.initial {α : Type} [Scalar α] : Workspace α := ⟨Scene.empty, Frames.initial⟩

/-- One thing that a line asks for. -/
inductive Directive (α : Type) where
  | imageSize (size : Int32)
  | cornerDistance (distance : α)
  | background (color : Vec3 α)
  | ambient (color : Vec3 α)
  | light (light : Light α)
  | openGroup
  | closeGroup
  | sphere
  | material (material : Material α)
  | refraction (color : Vec3 α) (index : α)
  | move (offset : Vec3 α)
  | scale (factors : Vec3 α)
  /-- A turn by an angle in degrees. -/
  | rotate (degrees : α) (axis : Vec3 α)
  /-- Nothing at all. -/
  | skip
deriving Repr

namespace Directive

variable {α : Type}

/-- Why a directive of a line cannot be carried out, if it cannot. -/
def fault? [Scalar α] (line : Nat) (frames : Frames α) : Directive α → Option Fault
  | closeGroup => if frames.closeGroup?.isSome then none else some (.unmatchedGroupEnd line)
  | rotate _ axis => if hasDirection axis then none else some (.noAxis line)
  | _ => none

/-- The workspace after a directive; one that cannot be carried out changes nothing. -/
def apply [Scalar α] (w : Workspace α) : Directive α → Workspace α
  | imageSize size => { w with scene := { w.scene with imageSize := size } }
  | cornerDistance distance => { w with scene := { w.scene with cornerDistance := distance } }
  | background color => { w with scene := { w.scene with background := color } }
  | ambient color => { w with scene := { w.scene with ambient := color } }
  | light l => { w with scene := w.scene.addLight l }
  | openGroup => { w with frames := w.frames.openGroup }
  | closeGroup => { w with frames := w.frames.closeGroup }
  | sphere =>
    { w with scene := w.scene.addObject (.sphere ⟨w.frames.transform, w.frames.material⟩) }
  | material m => { w with frames := w.frames.setMaterial m }
  | refraction color index =>
    { w with frames := w.frames.modifyMaterial fun m => m.withRefraction color index }
  | move offset => { w with frames := w.frames.modifyTransform fun t => translate t offset }
  | scale factors => { w with frames := w.frames.modifyTransform fun t => Space.scale t factors }
  | rotate degrees axis =>
    { w with frames := w.frames.modifyTransform fun t =>
        (rotate? t (radians degrees) axis).getD t }
  | skip => w

end Directive

end SceneScript.Script
