/-
Affine transforms. A transform whose last row is that of the identity maps every point with the
homogeneous division by one, so by a linear part and an offset (`IsAffine.mapsAffinely`). Over exact
numbers every step of a placement is of that kind, and so are products; groups only copy and uncover
frames. The invariant is on all frames, also the hidden ones, since closing a group brings one of them
to the top (`Frames.Affine`); what a line adds to the scene is placed by a frame (`KeepsAffine`).
-/
import Mathlib
import SceneScript.Proofs.Additions
import SceneScript.Proofs.Exact
namespace SceneScript.Space

/-! ## Sums of points -/

namespace Vec3

variable {α : Type} [Scalar α]

protected def add (p q : Vec3 α) : Vec3 α := ⟨p.x + q.x, p.y + q.y, p.z + q.z⟩

/-- The sum of points, each multiplied by a weight. -/
def combination (terms : List (α × Vec3 α)) : Vec3 α where
  x := (terms.map fun term => term.1 * term.2.x).sum
  y := (terms.map fun term => term.1 * term.2.y).sum
  z := (terms.map fun term => term.1 * term.2.z).sum

end Vec3

/-! ## Matrices with the last row of the identity -/

namespace Mat4

variable {α : Type}

section
variable [Scalar α]

def IsAffine (t : Mat4 α) : Prop := t.row3 = ⟨0, 0, 0, 1⟩

/-- The three rows and columns in front of the last ones, times a point. -/
def linearPart (t : Mat4 α) (p : Vec3 α) : Vec3 α where
  x := t.row0.x * p.x + t.row0.y * p.y + t.row0.z * p.z
  y := t.row1.x * p.x + t.row1.y * p.y + t.row1.z * p.z
  z := t.row2.x * p.x + t.row2.y * p.y + t.row2.z * p.z

/-- The first three components of the last column. -/
def lastColumn (t : Mat4 α) : Vec3 α := ⟨t.row0.w, t.row1.w, t.row2.w⟩

theorem isAffine_identity : (identity : Mat4 α).IsAffine := rfl

theorem isAffine_translation (offset : Vec3 α) : (translation offset).IsAffine := rfl

theorem isAffine_scaling (factors : Vec3 α) : (scaling factors).IsAffine := rfl

/-- Whatever the axis and the angle are, also if the axis is no unit vector. -/
theorem isAffine_rotation (u : Vec3 α) (angle : α) : (rotation u angle).IsAffine := by
  unfold rotation
  split <;> rfl

end

section
variable [ExactScalar α] {a b t : Mat4 α}

theorem rowMul_lastRow (b : Mat4 α) : rowMul ⟨0, 0, 0, 1⟩ b = b.row3 := by
  simp only [rowMul, transpose, Vec4.dot, zero_mul, one_mul, zero_add]

theorem IsAffine.mul (ha : a.IsAffine) (hb : b.IsAffine) : (a * b).IsAffine := by
  show rowMul a.row3 b = ⟨0, 0, 0, 1⟩
  rw [show a.row3 = _ from ha, rowMul_lastRow]
  exact hb

theorem IsAffine.translate (h : t.IsAffine) (offset : Vec3 α) : (translate t offset).IsAffine :=
  h.mul (isAffine_translation offset)

theorem IsAffine.scale (h : t.IsAffine) (factors : Vec3 α) : (Space.scale t factors).IsAffine :=
  h.mul (isAffine_scaling factors)

theorem IsAffine.rotate? (h : t.IsAffine) (angle : α) (axis : Vec3 α) :
    ((rotate? t angle axis).getD t).IsAffine := by
  unfold Space.rotate?
  split
  · exact h.mul (isAffine_rotation _ angle)
  · exact h

end

/-! ## Points under an affine transform -/

/-- A transform maps points with the homogeneous division by one: by its linear part and its last
column, so that it keeps every sum of points whose weights have the sum one. -/
structure MapsAffinely [Scalar α] (t : Mat4 α) : Prop where
  row3 : t.row3 = ⟨0, 0, 0, 1⟩
  weight : ∀ p, applyRow t.row3 p = 1
  divided : ∀ p, transformPoint t p =
    Vec3.divide ⟨applyRow t.row0 p, applyRow t.row1 p, applyRow t.row2 p⟩ (applyRow t.row3 p)
  linear : ∀ p, transformPoint t p = (t.linearPart p).add t.lastColumn
  combination : ∀ terms : List (α × Vec3 α), (terms.map Prod.fst).sum = 1 →
    transformPoint t (Vec3.combination terms) =
      Vec3.combination (terms.map fun term => (term.1, transformPoint t term.2))

section
variable [ExactField α] {t : Mat4 α}

theorem applyRow_combination (r : Vec4 α) (terms : List (α × Vec3 α)) :
    (terms.map fun term => term.1 * applyRow r term.2).sum =
      r.x * (Vec3.combination terms).x + r.y * (Vec3.combination terms).y +
        r.z * (Vec3.combination terms).z + r.w * (terms.map Prod.fst).sum := by
  induction terms with
  | nil => simp [Vec3.combination]
  | cons term terms ih =>
    simp only [Vec3.combination, List.map_cons, List.sum_cons] at ih ⊢
    rw [ih, applyRow]
    ring

theorem IsAffine.weight (h : t.IsAffine) (p : Vec3 α) : applyRow t.row3 p = 1 := by
  rw [show t.row3 = _ from h]
  simp only [applyRow, zero_mul, zero_add]

theorem IsAffine.transformPoint (h : t.IsAffine) (p : Vec3 α) :
    transformPoint t p = ⟨applyRow t.row0 p, applyRow t.row1 p, applyRow t.row2 p⟩ := by
  rw [Space.transformPoint, h.weight, ofHomogeneous]
  simp only [Vec3.divide, div_one, ite_self]

theorem IsAffine.mapsAffinely (h : t.IsAffine) : t.MapsAffinely where
  row3 := h
  weight := h.weight
  divided p := by
    rw [Space.transformPoint, ofHomogeneous, h.weight, if_neg (by simp)]
  linear p := h.transformPoint p
  combination terms hsum := by
    have hrow : ∀ r : Vec4 α, applyRow r (Vec3.combination terms) =
        (terms.map fun term => term.1 * applyRow r term.2).sum := by
      intro r
      rw [applyRow_combination, hsum, mul_one, applyRow]
    simp only [h.transformPoint, hrow]
    simp only [Vec3.combination, List.map_map, Function.comp_def]

end

end Mat4

end SceneScript.Space

namespace SceneScript.Script

open Space Number

variable {α : Type}

/-! ## Frames -/

namespace Frames

section
variable [Scalar α] {f : Frames α}

/-- The transforms of all frames are affine. -/
def Affine (f : Frames α) : Prop := ∀ t ∈ f.transforms.toList, t.IsAffine

theorem affine_initial : (initial : Frames α).Affine := by
  intro t ht
  rw [List.mem_singleton.1 ht]
  exact Mat4.isAffine_identity

theorem Affine.transform (h : f.Affine) : f.transform.IsAffine := h _ List.mem_cons_self

theorem Affine.openGroup (h : f.Affine) : f.openGroup.Affine :=
  List.forall_mem_cons.2 ⟨h.transform, h⟩

/-- The frame that comes to the top was hidden before. -/
theorem Affine.closeGroup (h : f.Affine) : f.closeGroup.Affine := by
  unfold Frames.closeGroup closeGroup?
  cases hpop : f.transforms.pop? with
  | none => exact h
  | some pair =>
    obtain ⟨t, transforms⟩ := pair
    cases f.materials.pop? with
    | none => exact h
    | some _ =>
      rw [Affine, Stack.toList_of_pop? hpop, List.forall_mem_cons] at h
      exact h.2

theorem Affine.modifyTransform (h : f.Affine) {change : Mat4 α → Mat4 α}
    (hchange : ∀ t : Mat4 α, t.IsAffine → (change t).IsAffine) : (f.modifyTransform change).Affine :=
  List.forall_mem_cons.2 ⟨hchange _ h.transform, fun t ht => h t (List.mem_cons_of_mem _ ht)⟩

end

end Frames

/-! ## What lines do to frames and objects -/

/-- Objects are added, if any, and those are placed by affine transforms. -/
def AddsAffine [Scalar α] (scene scene' : Scene α) : Prop :=
  ∃ added : List (SceneObject α), scene'.objects = scene.objects ++ added.toArray ∧
    ∀ object ∈ added, object.transform.IsAffine

/-- Affine frames stay affine, and objects are placed by them. -/
def KeepsAffine [Scalar α] (w w' : Workspace α) : Prop :=
  w.frames.Affine → w'.frames.Affine ∧ AddsAffine w.scene w'.scene

section
variable [Scalar α]

theorem AddsAffine.refl (scene : Scene α) : AddsAffine scene scene := ⟨[], by simp, nofun⟩

theorem AddsAffine.trans {scene₁ scene₂ scene₃ : Scene α} (h : AddsAffine scene₁ scene₂)
    (h' : AddsAffine scene₂ scene₃) : AddsAffine scene₁ scene₃ := by
  obtain ⟨added, hadded, hall⟩ := h
  obtain ⟨added', hadded', hall'⟩ := h'
  refine ⟨added ++ added', ?_, List.forall_mem_append.2 ⟨hall, hall'⟩⟩
  rw [hadded', hadded]
  simp

theorem KeepsAffine.refl (w : Workspace α) : KeepsAffine w w := fun h => ⟨h, .refl _⟩

theorem KeepsAffine.trans {u v w : Workspace α} (h : KeepsAffine u v) (h' : KeepsAffine v w) :
    KeepsAffine u w := by
  intro hu
  obtain ⟨hv, hadded⟩ := h hu
  obtain ⟨hw, hadded'⟩ := h' hv
  exact ⟨hw, hadded.trans hadded'⟩

end

section
variable [ExactScalar α]

theorem Directive.keepsAffine_apply (w : Workspace α) (d : Directive α) : KeepsAffine w (d.apply w) := by
  intro h
  cases d with
  | sphere =>
    refine ⟨h, [.sphere ⟨w.frames.transform, w.frames.material⟩], by simp [apply, Scene.addObject], ?_⟩
    intro object hobject
    rw [List.mem_singleton.1 hobject]
    exact h.transform
  | openGroup => exact ⟨h.openGroup, .refl _⟩
  | closeGroup => exact ⟨h.closeGroup, .refl _⟩
  | move offset => exact ⟨h.modifyTransform fun t ht => ht.translate offset, .refl _⟩
  | scale factors => exact ⟨h.modifyTransform fun t ht => ht.scale factors, .refl _⟩
  | rotate degrees axis => exact ⟨h.modifyTransform fun t ht => ht.rotate? _ axis, .refl _⟩
  | imageSize | cornerDistance | background | ambient | light | material | refraction | skip =>
    exact ⟨h, .refl _⟩

variable [FromWord α]

theorem Command.keepsAffine_outcome (c : Command) (line : Nat) (name : String) (words : List String)
    (w : Workspace α) : KeepsAffine w (c.outcome line name words w).2 :=
  outcome_induction KeepsAffine.refl .trans (fun w d _ => d.keepsAffine_apply w) line name words w

namespace Session

theorem keepsAffine_readLine {s : Session α} (hv : s.vocabulary.OfCommands) (number : Nat)
    (line : String) : KeepsAffine s.workspace (s.readLine number line).session.workspace := by
  rcases readLine_cases hv line with hline | ⟨c, word, words, -, -, hline⟩
  · rw [(hline number).2]
    exact .refl _
  · rw [hline number]
    exact c.keepsAffine_outcome number word words s.workspace

theorem keepsAffine_after : ∀ (calls : List (Nat × String)) {s : Session α}, s.vocabulary.OfCommands →
    KeepsAffine s.workspace (s.after calls).workspace
  | [], _, _ => .refl _
  | (number, line) :: calls, _, hv =>
    (keepsAffine_readLine hv number line).trans (keepsAffine_after calls (ofCommands_readLine hv number line))

/-- Changes of the scene from outside touch no frame. -/
theorem affine_history : ∀ (events : List (Event α)) {s : Session α}, s.vocabulary.OfCommands →
    s.workspace.frames.Affine → (s.afterEvents events).workspace.frames.Affine ∧
      ∀ before report, (before, report) ∈ s.history events →
        AddsAffine before.workspace.scene report.session.workspace.scene
  | [], _, _, h => ⟨h, nofun⟩
  | .edit change :: events, s, hv, h => affine_history events (s := s.modifyScene change) hv h
  | .call number line :: events, s, hv, h => by
    obtain ⟨hframes, hadded⟩ := keepsAffine_readLine hv number line h
    obtain ⟨hlast, hlater⟩ := affine_history events (ofCommands_readLine hv number line) hframes
    refine ⟨hlast, fun before report hmem => ?_⟩
    rw [history, List.mem_cons] at hmem
    rcases hmem with heq | hmem
    · cases heq
      exact hadded
    · exact hlater before report hmem

end Session

end

/-! ## Sessions from their start -/

/-- Over the numbers of a field every transform that a session reaches is affine, whatever commands its
words mean: those of all frames, the hidden ones included, behind any calls, successful or not, and any
changes of the scene from outside, and those of the objects that the calls have added. So mapping a
point divides by exactly one; it is the linear part times the point, plus the last column, and it keeps
affine combinations of points. -/
theorem Session.transforms_affine [ExactField α] [FromWord α] {v : Vocabulary α} (hv : v.OfCommands)
    (policy : Policy) :
    let s := Session.withVocabulary v policy
    (∀ calls : List (Nat × String),
      (∀ t ∈ (s.after calls).workspace.frames.transforms.toList, t.MapsAffinely) ∧
        ∀ object ∈ (s.after calls).workspace.scene.objects, object.transform.MapsAffinely) ∧
    ∀ events : List (Event α),
      (∀ t ∈ (s.afterEvents events).workspace.frames.transforms.toList, t.MapsAffinely) ∧
        ∀ before report, (before, report) ∈ s.history events → ∃ added : List (SceneObject α),
          report.session.workspace.scene.objects =
            before.workspace.scene.objects ++ added.toArray ∧
          ∀ object ∈ added, object.transform.MapsAffinely := by
  intro s
  have hstart : s.workspace.frames.Affine := Frames.affine_initial
  refine ⟨fun calls => ?_, fun events => ?_⟩
  · obtain ⟨hframes, added, hadded, hall⟩ := keepsAffine_after calls (s := s) hv hstart
    refine ⟨fun t ht => (hframes t ht).mapsAffinely, fun object hobject => ?_⟩
    -- a session starts with an empty scene, so all objects have been added
    have hempty : s.workspace.scene.objects = #[] := rfl
    rw [hadded, hempty, Array.empty_append, List.mem_toArray] at hobject
    exact (hall object hobject).mapsAffinely
  · obtain ⟨hframes, hhistory⟩ := affine_history events (s := s) hv hstart
    refine ⟨fun t ht => (hframes t ht).mapsAffinely, fun before report hmem => ?_⟩
    obtain ⟨added, hadded, hall⟩ := hhistory before report hmem
    exact ⟨added, hadded, fun object hobject => (hall object hobject).mapsAffinely⟩

/-- A group that is scaled flat and turned, a line that fails, and a group that is left open. -/
theorem Session.transforms_affine_flat :
    let v : Vocabulary ℚ := .standard
    let s := Session.withVocabulary v {}
    let calls := [(1, "move 1 2 3"), (2, "group"), (3, "scale 2 0 1"), (4, "rotate 90 0 0 2"), (5, "sphere"),
      (6, "rotate 90 0 0 0"), (7, "group")]
    let t : Mat4 ℚ := ⟨⟨0, -2, 0, 1⟩, ⟨0, 0, 0, 2⟩, ⟨0, 0, 1, 3⟩, ⟨0, 0, 0, 1⟩⟩
    v.OfCommands ∧
      (s.after calls).workspace.frames.transforms.toList = [t, t, translation ⟨1, 2, 3⟩] ∧
      t.MapsAffinely ∧ (translation ⟨1, 2, 3⟩ : Mat4 ℚ).MapsAffinely ∧
      (∀ object ∈ (s.after calls).workspace.scene.objects, object.transform.MapsAffinely) ∧
      transformPoint t (Vec3.combination [(1 / 4, ⟨4, 0, 0⟩), (3 / 4, ⟨0, 4, 8⟩)]) =
        Vec3.combination [(1 / 4, ⟨1, 2, 3⟩), (3 / 4, ⟨-7, 2, 11⟩)] := by
  intro v s calls t
  have hv : v.OfCommands := Vocabulary.ofCommands_standard
  have hframes : (s.after calls).workspace.frames.transforms.toList = [t, t, translation ⟨1, 2, 3⟩] := by
    decide +kernel
  -- the theorem has the session written out; rewriting with its name spares running it once more
  have hs : s = Session.withVocabulary v {} := rfl
  have hcalls := (transforms_affine hv {}).1
  rw [← hs] at hcalls
  obtain ⟨hall, hobjects⟩ := hcalls calls
  rw [hframes] at hall
  have ht : t.MapsAffinely := hall t List.mem_cons_self
  have hsum : (([(1 / 4, ⟨4, 0, 0⟩), (3 / 4, ⟨0, 4, 8⟩)] : List (ℚ × Vec3 ℚ)).map Prod.fst).sum = 1 := by
    decide +kernel
  refine ⟨hv, hframes, ht, hall _ (.tail _ (.tail _ List.mem_cons_self)), hobjects, ?_⟩
  rw [ht.combination _ hsum]
  decide +kernel

end SceneScript.Script
