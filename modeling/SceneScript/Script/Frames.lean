/-
The state that groups save and restore: one stack of transforms and one of materials. Both have
a lowest frame that is never removed, so there is always a transform and a material in force.
-/
import SceneScript.Scene.Basic
namespace SceneScript.Script

open Space

/-! ## Stacks that are never empty -/

/-- A stack with at least one element; the list holds those under the top, the nearest first. -/
structure Stack (β : Type) where
  top : β
  below : List β
deriving Repr, DecidableEq

namespace Stack

variable {β : Type}

/-- The elements, the top first. -/
def toList (s : Stack β) : List β := s.top :: s.below

/-- How many elements there are. -/
def depth (s : Stack β) : Nat := s.below.length + 1

/-- A copy of the top above it. -/
def duplicate (s : Stack β) : Stack β := ⟨s.top, s.top :: s.below⟩

/-- The top and the stack under it, if something is left there. -/
def pop? (s : Stack β) : Option (β × Stack β) :=
  match s.below with
  | [] => none
  | b :: bs => some (s.top, ⟨b, bs⟩)

/-- The stack with its top changed. -/
def modifyTop (f : β → β) (s : Stack β) : Stack β := { s with top := f s.top }

@[simp] theorem toList_duplicate (s : Stack β) : s.duplicate.toList = s.top :: s.toList := rfl

@[simp] theorem toList_modifyTop (f : β → β) (s : Stack β) :
    (s.modifyTop f).toList = f s.top :: s.below := rfl

theorem length_toList (s : Stack β) : s.toList.length = s.depth := by simp [toList, depth]

theorem pop?_eq_none_iff {s : Stack β} : s.pop? = none ↔ s.depth = 1 := by
  obtain ⟨top, below⟩ := s
  cases below <;> simp [pop?, depth]

theorem toList_of_pop? {s rest : Stack β} {b : β} (h : s.pop? = some (b, rest)) :
    s.toList = b :: rest.toList := by
  obtain ⟨top, below⟩ := s
  cases below with
  | nil => cases h
  | cons c cs => cases h; rfl

@[simp] theorem pop?_duplicate (s : Stack β) : s.duplicate.pop? = some (s.top, s) := rfl

/-! ## Stacks element by element -/

variable {γ : Type}

def map (f : β → γ) (s : Stack β) : Stack γ := ⟨f s.top, s.below.map f⟩

theorem map_id (s : Stack β) : s.map id = s := by simp [map]

@[simp] theorem top_map (f : β → γ) (s : Stack β) : (s.map f).top = f s.top := rfl

theorem toList_map (f : β → γ) (s : Stack β) : (s.map f).toList = s.toList.map f := rfl

@[simp] theorem depth_map (f : β → γ) (s : Stack β) : (s.map f).depth = s.depth := by
  simp [map, depth]

@[simp] theorem pop?_map (f : β → γ) (s : Stack β) :
    (s.map f).pop? = s.pop?.map fun popped => (f popped.1, popped.2.map f) := by
  obtain ⟨top, below⟩ := s
  cases below <;> rfl

end Stack

/-! ## Frames -/

/-- The transforms and the materials in force, one of each for every open group and one pair
outside of all groups. -/
structure Frames (α : Type) where
  transforms : Stack (Mat4 α)
  materials : Stack (Material α)
deriving Repr

namespace Frames

variable {α : Type}

/-- One frame and no open group. -/
def ofPair (transform : Mat4 α) (material : Material α) : Frames α :=
  ⟨⟨transform, []⟩, ⟨material, []⟩⟩

/-- The frames at the start of a script. -/
def initial [Scalar α] : Frames α := ofPair Mat4.identity Material.initial

/-- The number of frames. -/
def depth (f : Frames α) : Nat := f.transforms.depth

/-- The number of open groups. -/
def openGroups (f : Frames α) : Nat := f.depth - 1

/-- The transform in force. -/
def transform (f : Frames α) : Mat4 α := f.transforms.top

/-- The material in force. -/
def material (f : Frames α) : Material α := f.materials.top

/-- A new group starts from the frame around it. -/
def openGroup (f : Frames α) : Frames α :=
  ⟨f.transforms.duplicate, f.materials.duplicate⟩

/-- The innermost group's frame and the frames around it, if a group is open. -/
def closeGroup? (f : Frames α) : Option ((Mat4 α × Material α) × Frames α) :=
  match f.transforms.pop?, f.materials.pop? with
  | some (t, transforms), some (m, materials) => some ((t, m), ⟨transforms, materials⟩)
  | _, _ => none

/-- The frames around the innermost group, or the frames as they are if no group is open. -/
def closeGroup (f : Frames α) : Frames α :=
  match f.closeGroup? with
  | some (_, outer) => outer
  | none => f

/-- The transform in force, changed. -/
def modifyTransform (change : Mat4 α → Mat4 α) (f : Frames α) : Frames α :=
  { f with transforms := f.transforms.modifyTop change }

/-- Another transform in force. -/
def setTransform (t : Mat4 α) (f : Frames α) : Frames α := f.modifyTransform fun _ => t

/-- The material in force, changed. -/
def modifyMaterial (change : Material α → Material α) (f : Frames α) : Frames α :=
  { f with materials := f.materials.modifyTop change }

/-- Another material in force. -/
def setMaterial (m : Material α) (f : Frames α) : Frames α := f.modifyMaterial fun _ => m

@[simp] theorem closeGroup?_openGroup (f : Frames α) :
    f.openGroup.closeGroup? = some ((f.transform, f.material), f) := rfl

@[simp] theorem closeGroup_openGroup (f : Frames α) : f.openGroup.closeGroup = f := rfl

@[simp] theorem depth_openGroup (f : Frames α) : f.openGroup.depth = f.depth + 1 := rfl

@[simp] theorem depth_modifyTransform (change : Mat4 α → Mat4 α) (f : Frames α) :
    (f.modifyTransform change).depth = f.depth := rfl

@[simp] theorem depth_modifyMaterial (change : Material α → Material α) (f : Frames α) :
    (f.modifyMaterial change).depth = f.depth := rfl

/-! ## Both stacks are of one depth -/

/-- There is a material for every transform. -/
def Balanced (f : Frames α) : Prop := f.transforms.depth = f.materials.depth

theorem Balanced.openGroup {f : Frames α} (h : f.Balanced) : f.openGroup.Balanced :=
  congrArg (· + 1) h

theorem Balanced.modifyTransform {f : Frames α} (h : f.Balanced) (change : Mat4 α → Mat4 α) :
    (f.modifyTransform change).Balanced := h

theorem Balanced.modifyMaterial {f : Frames α} (h : f.Balanced)
    (change : Material α → Material α) : (f.modifyMaterial change).Balanced := h

/-- With both stacks of one depth, closing fails only where no group is open. -/
theorem Balanced.closeGroup?_eq_none_iff {f : Frames α} (h : f.Balanced) :
    f.closeGroup? = none ↔ f.openGroups = 0 := by
  obtain ⟨⟨t, ts⟩, ⟨m, ms⟩⟩ := f
  have hl : ts.length = ms.length := by simpa [Balanced, Stack.depth] using h
  cases ts <;> cases ms <;>
    simp_all [closeGroup?, openGroups, depth, Stack.depth, Stack.pop?]

/-- What is left after a group is closed is of one depth again, and one frame smaller. -/
theorem Balanced.of_closeGroup? {f outer : Frames α} {pair : Mat4 α × Material α}
    (h : f.Balanced) (hc : f.closeGroup? = some (pair, outer)) :
    outer.Balanced ∧ f.depth = outer.depth + 1 := by
  obtain ⟨⟨t, ts⟩, ⟨m, ms⟩⟩ := f
  have hl : ts.length = ms.length := by simpa [Balanced, Stack.depth] using h
  cases ts <;> cases ms <;> simp_all [closeGroup?, Stack.pop?]
  obtain ⟨_, rfl⟩ := hc
  exact ⟨by simpa [Balanced, Stack.depth] using hl, rfl⟩

end Frames

end SceneScript.Script
