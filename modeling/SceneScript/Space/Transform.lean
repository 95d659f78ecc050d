/-
Transforms: a placement is extended by multiplying a step on its right, so the step acts in the
frame that the placement has set up. Points are mapped with the homogeneous division.
-/
import SceneScript.Space.Matrix
namespace SceneScript.Space

variable {α : Type} [Scalar α]

/-! ## Steps -/

/-- The matrix that adds an offset to a point. -/
def translation (offset : Vec3 α) : Mat4 α where
  row0 := ⟨1, 0, 0, offset.x⟩
  row1 := ⟨0, 1, 0, offset.y⟩
  row2 := ⟨0, 0, 1, offset.z⟩
  row3 := ⟨0, 0, 0, 1⟩

/-- The matrix that multiplies each component of a point by its factor. -/
def scaling (factors : Vec3 α) : Mat4 α where
  row0 := ⟨factors.x, 0, 0, 0⟩
  row1 := ⟨0, factors.y, 0, 0⟩
  row2 := ⟨0, 0, factors.z, 0⟩
  row3 := ⟨0, 0, 0, 1⟩

/-- The rotation about the unit axis `u` by the angle with sine `s` and cosine `c`. -/
def axisRotation (u : Vec3 α) (s c : α) : Mat4 α :=
  let k := 1 - c
  let xx := u.x * u.x
  let yy := u.y * u.y
  let zz := u.z * u.z
  { row0 := ⟨xx + (1 - xx) * c, u.x * u.y * k - u.z * s, u.x * u.z * k + u.y * s, 0⟩
    row1 := ⟨u.x * u.y * k + u.z * s, yy + (1 - yy) * c, u.y * u.z * k - u.x * s, 0⟩
    row2 := ⟨u.x * u.z * k - u.y * s, u.y * u.z * k + u.x * s, zz + (1 - zz) * c, 0⟩
    row3 := ⟨0, 0, 0, 1⟩ }

/-- The rotation about the unit axis `u` by an angle in radians. A rotation by nothing is the
identity, without rounding. -/
def rotation (u : Vec3 α) (angle : α) : Mat4 α :=
  if angle == 0 then Mat4.identity else axisRotation u (Scalar.sin angle) (Scalar.cos angle)

/-! ## Extending a placement -/

/-- Moves what is placed by `t` along an offset. -/
def translate (t : Mat4 α) (offset : Vec3 α) : Mat4 α := t * translation offset

/-- Scales what is placed by `t` along the three axes. -/
def scale (t : Mat4 α) (factors : Vec3 α) : Mat4 α := t * scaling factors

/-- An axis has a direction if its length comes out as neither zero nor infinite nor undefined. -/
def hasDirection (axis : Vec3 α) : Bool := !(axis.norm == 0 || !Scalar.isFinite axis.norm)

/-- Turns what is placed by `t` about an axis, by an angle in radians. The axis may have any
length; without a direction there is no rotation. -/
def rotate? (t : Mat4 α) (angle : α) (axis : Vec3 α) : Option (Mat4 α) :=
  if hasDirection axis then some (t * rotation (axis.divide axis.norm) angle) else none

/-- Degrees in radians. -/
def radians (degrees : α) : α := degrees * Scalar.radiansPerDegree

/-- Whether there is a rotation is decided by the axis alone. -/
theorem isSome_rotate? (t : Mat4 α) (angle : α) (axis : Vec3 α) :
    (rotate? t angle axis).isSome = hasDirection axis := by
  unfold rotate?; split <;> simp_all

/-! ## Mapping points -/

/-- A row applied to a point, whose fourth coordinate is one. -/
def applyRow (r : Vec4 α) (p : Vec3 α) : α := r.x * p.x + r.y * p.y + r.z * p.z + r.w

/-- The point with homogeneous coordinates: three of them divided by the fourth, unless that is
zero. -/
def ofHomogeneous (v : Vec3 α) (weight : α) : Vec3 α :=
  if weight == 0 then v else v.divide weight

/-- The image of a point. -/
def transformPoint (t : Mat4 α) (p : Vec3 α) : Vec3 α :=
  ofHomogeneous ⟨applyRow t.row0 p, applyRow t.row1 p, applyRow t.row2 p⟩ (applyRow t.row3 p)

end SceneScript.Space
