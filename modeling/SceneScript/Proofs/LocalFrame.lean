/-
Steps of a placement act first. Mapping a point by a product whose right factor is affine is mapping it by
the right factor and then by the left one, also where the homogeneous coordinate comes out as zero
(`transformPoint_mul`). So a line that moves, scales or turns what is placed comes to the same as mapping
the points before they are placed, and of several lines the last one maps them first.
-/
import SceneScript.Proofs.Affine
import SceneScript.Proofs.Blocks
import SceneScript.Proofs.Channels
namespace SceneScript.Space

variable {α : Type}

/-! ## Points under a product -/

/-- The products of the components of two vectors. -/
protected def Vec3.mul [Scalar α] (v p : Vec3 α) : Vec3 α := ⟨v.x * p.x, v.y * p.y, v.z * p.z⟩

section
variable [ExactField α] {b : Mat4 α}

theorem applyRow_rowMul (hb : b.IsAffine) (r : Vec4 α) (p : Vec3 α) :
    applyRow (Mat4.rowMul r b) p = applyRow r (transformPoint b p) := by
  rw [hb.transformPoint]
  simp only [applyRow, Mat4.rowMul, Mat4.transpose, Vec4.dot, show b.row3 = _ from hb]
  ring

/-- The homogeneous coordinates of the image are the same, so they are divided, or not, alike. -/
theorem transformPoint_mul (hb : b.IsAffine) (t : Mat4 α) (p : Vec3 α) :
    transformPoint (t * b) p = transformPoint t (transformPoint b p) := by
  show ofHomogeneous ⟨applyRow (Mat4.rowMul t.row0 b) p, applyRow (Mat4.rowMul t.row1 b) p,
    applyRow (Mat4.rowMul t.row2 b) p⟩ (applyRow (Mat4.rowMul t.row3 b) p) = _
  simp only [applyRow_rowMul hb]
  rfl

theorem transformPoint_translation (offset p : Vec3 α) :
    transformPoint (translation offset) p = p.add offset := by
  rw [(Mat4.isAffine_translation offset).transformPoint]
  simp only [applyRow, translation, one_mul, zero_mul, add_zero, zero_add, Vec3.add]

theorem transformPoint_scaling (factors p : Vec3 α) :
    transformPoint (scaling factors) p = factors.mul p := by
  rw [(Mat4.isAffine_scaling factors).transformPoint]
  simp only [applyRow, scaling, zero_mul, add_zero, zero_add, Vec3.mul]

/-- A rotation keeps the origin. -/
theorem lastColumn_rotation (u : Vec3 α) (angle : α) : (rotation u angle).lastColumn = ⟨0, 0, 0⟩ := by
  unfold rotation
  split <;> rfl

theorem transformPoint_rotation (u : Vec3 α) (angle : α) (p : Vec3 α) :
    transformPoint (rotation u angle) p = (rotation u angle).linearPart p := by
  rw [(Mat4.isAffine_rotation u angle).mapsAffinely.linear, lastColumn_rotation]
  simp only [Vec3.add, add_zero]

theorem transformPoint_translate (t : Mat4 α) (offset p : Vec3 α) :
    transformPoint (translate t offset) p = transformPoint t (p.add offset) := by
  rw [translate, transformPoint_mul (Mat4.isAffine_translation offset), transformPoint_translation]

theorem transformPoint_scale (t : Mat4 α) (factors p : Vec3 α) :
    transformPoint (scale t factors) p = transformPoint t (factors.mul p) := by
  rw [scale, transformPoint_mul (Mat4.isAffine_scaling factors), transformPoint_scaling]

theorem transformPoint_rotate? {t turned : Mat4 α} {angle : α} {axis : Vec3 α}
    (h : rotate? t angle axis = some turned) (p : Vec3 α) :
    transformPoint turned p =
      transformPoint t ((rotation (axis.divide axis.norm) angle).linearPart p) := by
  rw [rotate?, Option.ite_none_right_eq_some, Option.some.injEq] at h
  rw [← h.2, transformPoint_mul (Mat4.isAffine_rotation _ angle), transformPoint_rotation]

end

end SceneScript.Space

namespace SceneScript.Script

open Space Number

variable {α : Type}

/-! ## The points that a line maps -/

/-- The first three words as a vector. -/
def vector? [FromWord α] : List String → Option (Vec3 α)
  | x :: y :: z :: _ => do return ⟨← ofWord? x, ← ofWord? y, ← ofWord? z⟩
  | _ => none

/-- How a command with these words maps the points of the frame that it finds. -/
def Command.pointMap? [Scalar α] [FromWord α] : Command → List String → Option (Vec3 α → Vec3 α)
  | move, words => (vector? words).map fun offset p => p.add offset
  | scale, words => (vector? words).map fun factors p => factors.mul p
  | rotate, word :: words => do
    let degrees : α ← ofWord? word
    let axis ← vector? words
    return (rotation (axis.divide axis.norm) (radians degrees)).linearPart
  | _, _ => none

/-- A line maps the points of the frame that it finds, if it is carried out. -/
def Session.MapsBy [Scalar α] [FromWord α] (s : Session α) (line : String) (f : Vec3 α → Vec3 α) : Prop :=
  ∃ (c : Command) (word : String) (words : List String), statement? line = some (word, words) ∧
    s.vocabulary.find? word = some c.action ∧ c.pointMap? words = some f

section
variable [FromWord α]

theorem readValues_number_eq_ok {taken : Nat} {kinds : List Kind} {words : List String}
    {values : List (Value α)} (h : readValues taken (.number :: kinds) words = .ok values) :
    ∃ word rest x later, words = word :: rest ∧ ofWord? word = some x ∧ values = .number x :: later ∧
      readValues (taken + 1) kinds rest = .ok later := by
  cases words with
  | nil => cases h
  | cons word rest =>
    rw [readValues, Kind.read?] at h
    cases hx : (ofWord? word : Option α) with
    | none =>
      rw [hx] at h
      cases h
    | some x =>
      rw [hx] at h
      simp only [Option.map_some] at h
      cases hlater : (readValues (taken + 1) kinds rest : Except Flaw (List (Value α))) with
      | error flaw =>
        rw [hlater] at h
        cases h
      | ok later =>
        rw [hlater] at h
        cases h
        exact ⟨word, rest, x, later, rfl, hx, rfl, hlater⟩

theorem readValues_vector_eq_ok {taken : Nat} {words : List String} {values : List (Value α)}
    (h : readValues taken (.replicate 3 .number) words = .ok values) :
    ∃ v : Vec3 α, vector? words = some v ∧ values = [.number v.x, .number v.y, .number v.z] := by
  obtain ⟨wx, _, x, _, rfl, hx, rfl, hyz⟩ := readValues_number_eq_ok h
  obtain ⟨wy, _, y, _, rfl, hy, rfl, hz'⟩ := readValues_number_eq_ok hyz
  obtain ⟨wz, _, z, _, rfl, hz, rfl, hnil⟩ := readValues_number_eq_ok hz'
  cases hnil
  refine ⟨⟨x, y, z⟩, ?_, rfl⟩
  simp only [vector?, hx, hy, hz]
  rfl

end

variable [ExactField α] [FromWord α]

/-- A command that sets a transform, carried out, maps the points before the transform does. -/
theorem Command.outcome_mapsPoints {c : Command} (hc : c.setsTransform = true) {line : Nat} {name : String}
    {words : List String} {w : Workspace α} (h : (c.outcome line name words w).1 = .ok ()) :
    ∃ f, c.pointMap? words = some f ∧ ∀ p,
      transformPoint (c.outcome line name words w).2.frames.transform p =
        transformPoint w.frames.transform (f p) := by
  obtain ⟨ds, hread, hunrefused, hworkspace⟩ := outcome_of_ok h
  rw [hworkspace]
  rw [Command.read] at hread
  cases hvalues : (readValues 0 c.kinds words : Except Flaw (List (Value α))) with
  | error flaw =>
    rw [hvalues] at hread
    cases hread
  | ok values =>
    rw [hvalues] at hread
    obtain rfl : c.directives values = ds := Except.ok.inj hread
    cases c with
    | move =>
      obtain ⟨offset, hoffset, rfl⟩ := readValues_vector_eq_ok hvalues
      refine ⟨_, by rw [pointMap?, hoffset]; rfl, fun p => ?_⟩
      exact transformPoint_translate w.frames.transform offset p
    | scale =>
      obtain ⟨factors, hfactors, rfl⟩ := readValues_vector_eq_ok hvalues
      refine ⟨_, by rw [pointMap?, hfactors]; rfl, fun p => ?_⟩
      exact transformPoint_scale w.frames.transform factors p
    | rotate =>
      obtain ⟨word, rest, degrees, later, rfl, hdegrees, rfl, hlater⟩ := readValues_number_eq_ok hvalues
      obtain ⟨axis, haxis, rfl⟩ := readValues_vector_eq_ok hlater
      refine ⟨_, by simp only [pointMap?, hdegrees, haxis]; rfl, fun p => ?_⟩
      -- a turn that is not refused has an axis, so there is a transform that is turned
      have hturned : rotate? w.frames.transform (radians degrees) axis =
          some (w.frames.transform * rotation (axis.divide axis.norm) (radians degrees)) := by
        have hfault : (if hasDirection axis then none else some (Fault.noAxis line)) = none :=
          hunrefused.1 line
        rw [rotate?, if_pos]
        by_contra hno
        rw [if_neg hno] at hfault
        cases hfault
      have htransform : ([.rotate degrees axis].foldl Directive.apply w).frames.transform =
          (rotate? w.frames.transform (radians degrees) axis).getD w.frames.transform := rfl
      show transformPoint ([.rotate degrees axis].foldl Directive.apply w).frames.transform p = _
      rw [htransform, hturned, Option.getD_some]
      exact transformPoint_rotate? hturned p
    | _ => cases hc

namespace Session

theorem readLine_mapsPoints {s : Session α} {c : Command} (hc : c.setsTransform = true) {line : String}
    (h : s.Asks c line) {number : Nat} (hok : (s.readLine number line).result = .ok ()) :
    ∃ f, s.MapsBy line f ∧ ∀ p,
      transformPoint (s.readLine number line).session.workspace.frames.transform p =
        transformPoint s.workspace.frames.transform (f p) := by
  obtain ⟨word, words, hs, hf⟩ := h
  rw [readLine_of_action hs hf, perform_action] at hok ⊢
  obtain ⟨f, hmap, hpoints⟩ := Command.outcome_mapsPoints hc hok
  exact ⟨f, ⟨c, word, words, hs, hf, hmap⟩, hpoints⟩

/-- The map of the first line is applied last, and by then the later lines have mapped the point. -/
theorem after_mapsPoints : ∀ (calls : List (Nat × String)) {s : Session α},
    (∀ call ∈ calls, ∃ c : Command, c.setsTransform = true ∧ s.Asks c call.2) →
    (∀ result ∈ s.results calls, result = .ok ()) →
    ∃ maps, List.Forall₂ (fun call f => s.MapsBy call.2 f) calls maps ∧ ∀ p,
      transformPoint (s.after calls).workspace.frames.transform p =
        transformPoint s.workspace.frames.transform (maps.foldr (fun f q => f q) p)
  | [], _, _, _ => ⟨[], .nil, fun _ => rfl⟩
  | (number, line) :: calls, s, hasks, hok => by
    rw [results, List.forall_mem_cons] at hok
    rw [List.forall_mem_cons] at hasks
    obtain ⟨c, hc, hline⟩ := hasks.1
    obtain ⟨f, hf, hfirst⟩ := readLine_mapsPoints hc hline hok.1
    -- the words of the later lines mean the same as before the first one
    have hkeeps := (readLine_keeps (s := s) number line).1
    have hlater : ∀ call ∈ calls, ∃ c : Command, c.setsTransform = true ∧
        (s.readLine number line).session.Asks c call.2 := by
      simpa only [Asks, hkeeps] using hasks.2
    obtain ⟨maps, hmaps, hrest⟩ := after_mapsPoints calls hlater hok.2
    simp only [MapsBy, hkeeps] at hmaps
    refine ⟨f :: maps, .cons hf hmaps, fun p => ?_⟩
    rw [after_cons, hrest, hfirst, List.foldr_cons]

/-- New steps act first, in the frame that the placement has set up. Over the numbers of a field, whatever
matrix a transform is, mapping a point by the transform moved, scaled or turned is mapping the point
moved, scaled or turned by the transform itself, also where there is no division because the homogeneous
coordinate is zero. So behind lines that move, scale or turn, all of them carried out, the transform in
force maps a point as the one in front of them maps the point that the lines have mapped, the last one
first. -/
theorem steps_act_first :
    (∀ (t : Mat4 α) (offset p : Vec3 α),
      transformPoint (translate t offset) p = transformPoint t (p.add offset)) ∧
    (∀ (t : Mat4 α) (factors p : Vec3 α),
      transformPoint (Space.scale t factors) p = transformPoint t (factors.mul p)) ∧
    (∀ (t turned : Mat4 α) (angle : α) (axis p : Vec3 α), rotate? t angle axis = some turned →
      transformPoint turned p =
        transformPoint t ((rotation (axis.divide axis.norm) angle).linearPart p)) ∧
    ∀ (s : Session α) (calls : List (Nat × String)),
      (∀ call ∈ calls, ∃ c : Command, c.setsTransform = true ∧ s.Asks c call.2) →
      (∀ result ∈ s.results calls, result = .ok ()) →
      ∃ maps, List.Forall₂ (fun call f => s.MapsBy call.2 f) calls maps ∧ ∀ p,
        transformPoint (s.after calls).workspace.frames.transform p =
          transformPoint s.workspace.frames.transform (maps.foldr (fun f q => f q) p) :=
  ⟨transformPoint_translate, transformPoint_scale, fun _ _ _ _ p h => transformPoint_rotate? h p,
    fun _ calls => after_mapsPoints calls⟩

/-- Three steps behind a matrix that is not affine, and a point whose image has the homogeneous
coordinate zero. -/
theorem steps_act_first_weightless :
    let t : Mat4 ℚ := ⟨⟨1, 0, 0, 5⟩, ⟨0, 1, 0, 0⟩, ⟨0, 0, 2, 0⟩, ⟨1, 1, 0, 0⟩⟩
    let s : Session ℚ := ⟨⟨Scene.empty, .ofPair t .initial⟩, .standard, {}⟩
    let calls := [(1, "move 1 0 0"), (2, "rotate 90 0 0 2"), (3, "scale 2 3 4 x")]
    (∀ call ∈ calls, ∃ c : Command, c.setsTransform = true ∧ s.Asks c call.2) ∧
      (∀ result ∈ s.results calls, result = .ok ()) ∧
      (∃ maps, List.Forall₂ (fun call f => s.MapsBy call.2 f) calls maps ∧ ∀ p,
        transformPoint (s.after calls).workspace.frames.transform p =
          transformPoint t (maps.foldr (fun f q => f q) p)) ∧
      transformPoint (s.after calls).workspace.frames.transform ⟨1, 1, 1⟩ = ⟨3, 2, 8⟩ ∧
      transformPoint t ⟨-2, 2, 4⟩ = ⟨3, 2, 8⟩ ∧ applyRow t.row3 ⟨-2, 2, 4⟩ = 0 := by
  intro t s calls
  have hasks : ∀ call ∈ calls, ∃ c : Command, c.setsTransform = true ∧ s.Asks c call.2 := by
    simp only [calls, List.forall_mem_cons]
    refine ⟨⟨.move, rfl, "move", ["1", "0", "0"], by decide +kernel, Vocabulary.find?_standard_name .move⟩,
      ⟨.rotate, rfl, "rotate", ["90", "0", "0", "2"], by decide +kernel,
        Vocabulary.find?_standard_name .rotate⟩,
      ⟨.scale, rfl, "scale", ["2", "3", "4", "x"], by decide +kernel,
        Vocabulary.find?_standard_name .scale⟩, nofun⟩
  have hok : ∀ result ∈ s.results calls, result = .ok () := by decide +kernel
  exact ⟨hasks, hok, steps_act_first.2.2.2 s calls hasks hok, by decide +kernel, by decide +kernel,
    by decide +kernel⟩

end Session

end SceneScript.Script
