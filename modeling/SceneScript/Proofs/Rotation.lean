/-
Rotations. Over exact numbers the matrix of a rotation about a unit axis is orthogonal with determinant one
and keeps the axis, whatever point of the unit circle its cosine and sine are; two rotations about one axis
are one rotation, by the addition formulas (`axisRotation_mul`). The axis of a placement may have any length
but zero: what is turned about is the unit vector along it, so a positive factor does not matter and a
negative one turns the other way round.
-/
import Mathlib
import SceneScript.Proofs.LocalFrame
namespace SceneScript.Space

variable {α : Type}

/-! ## Vectors and linear parts -/

namespace Vec3

variable [Scalar α]

protected def sub (p q : Vec3 α) : Vec3 α := ⟨p.x - q.x, p.y - q.y, p.z - q.z⟩

/-- A vector with each component multiplied by a factor. -/
def scaled (k : α) (v : Vec3 α) : Vec3 α := ⟨k * v.x, k * v.y, k * v.z⟩

/-- The square of the length. -/
def normSq (v : Vec3 α) : α := v.x * v.x + v.y * v.y + v.z * v.z

def distance (p q : Vec3 α) : α := (p.sub q).norm

end Vec3

/-- The three rows and columns in front of the last ones. -/
def Mat4.linear (t : Mat4 α) : Matrix (Fin 3) (Fin 3) α :=
  !![t.row0.x, t.row0.y, t.row0.z; t.row1.x, t.row1.y, t.row1.z; t.row2.x, t.row2.y, t.row2.z]

/-! ## Unit axes -/

section
variable [ExactScalar α] {u : Vec3 α} {s c : α}

protected theorem Mat4.identity_mul (t : Mat4 α) : Mat4.identity * t = t := by
  simp only [mul_def, mul, rowMul, transpose, identity, Vec4.dot, one_mul, zero_mul, add_zero, zero_add]

theorem axisRotation_zero_one (u : Vec3 α) : axisRotation u 0 1 = Mat4.identity := by
  simp only [axisRotation, Mat4.identity, Mat4.mk.injEq, Vec4.mk.injEq]
  refine ⟨⟨?_, ?_, ?_, trivial⟩, ⟨?_, ?_, ?_, trivial⟩, ⟨?_, ?_, ?_, trivial⟩, trivial⟩ <;> ring

/-- A rotation about the opposite axis turns the other way round. -/
theorem axisRotation_opposite (u : Vec3 α) (s c : α) :
    axisRotation ⟨-u.x, -u.y, -u.z⟩ s c = axisRotation u (-s) c := by
  simp only [axisRotation, Mat4.mk.injEq, Vec4.mk.injEq]
  refine ⟨⟨?_, ?_, ?_, trivial⟩, ⟨?_, ?_, ?_, trivial⟩, ⟨?_, ?_, ?_, trivial⟩, trivial⟩ <;> ring

/-- Two rotations about one axis are the rotation by the sum of the angles. -/
theorem axisRotation_mul (hu : u.normSq = 1) (s c s' c' : α) :
    axisRotation u s c * axisRotation u s' c' =
      axisRotation u (s * c' + c * s') (c * c' - s * s') := by
  obtain ⟨x, y, z⟩ := u
  have h : x * x + y * y + z * z = 1 := hu
  simp only [Mat4.mul_def, Mat4.mul, Mat4.rowMul, Mat4.transpose, Vec4.dot, axisRotation, Mat4.mk.injEq,
    Vec4.mk.injEq]
  -- an entry in row `i` and column `j` differs by a multiple of how far the axis is from a unit vector
  refine ⟨⟨?_, ?_, ?_, ?_⟩, ⟨?_, ?_, ?_, ?_⟩, ⟨?_, ?_, ?_, ?_⟩, ?_, ?_, ?_, ?_⟩
  · linear_combination ((1 - c) * (1 - c') * x * x - s * s') * h
  · linear_combination ((1 - c) * (1 - c') * x * y) * h
  · linear_combination ((1 - c) * (1 - c') * x * z) * h
  · ring
  · linear_combination ((1 - c) * (1 - c') * y * x) * h
  · linear_combination ((1 - c) * (1 - c') * y * y - s * s') * h
  · linear_combination ((1 - c) * (1 - c') * y * z) * h
  · ring
  · linear_combination ((1 - c) * (1 - c') * z * x) * h
  · linear_combination ((1 - c) * (1 - c') * z * y) * h
  · linear_combination ((1 - c) * (1 - c') * z * z - s * s') * h
  all_goals ring

/-- What a rotation does to a point on its axis. -/
theorem linearPart_axisRotation_scaled (hu : u.normSq = 1) (s c k : α) :
    (axisRotation u s c).linearPart (u.scaled k) = u.scaled k := by
  obtain ⟨x, y, z⟩ := u
  have h : x * x + y * y + z * z = 1 := hu
  simp only [Mat4.linearPart, axisRotation, Vec3.scaled, Vec3.mk.injEq]
  refine ⟨?_, ?_, ?_⟩
  · linear_combination (1 - c) * k * x * h
  · linear_combination (1 - c) * k * y * h
  · linear_combination (1 - c) * k * z * h

theorem normSq_linearPart_axisRotation (hu : u.normSq = 1) (hs : s * s + c * c = 1) (v : Vec3 α) :
    ((axisRotation u s c).linearPart v).normSq = v.normSq := by
  obtain ⟨x, y, z⟩ := u
  have h : x * x + y * y + z * z = 1 := hu
  simp only [Mat4.linearPart, axisRotation, Vec3.normSq]
  linear_combination (v.x * v.x + v.y * v.y + v.z * v.z - (x * v.x + y * v.y + z * v.z) ^ 2) * hs +
    (s ^ 2 * (v.x * v.x + v.y * v.y + v.z * v.z) +
      (1 - c) ^ 2 * (x * v.x + y * v.y + z * v.z) ^ 2) * h

theorem transpose_mul_linear_axisRotation (hu : u.normSq = 1) (hs : s * s + c * c = 1) :
    (axisRotation u s c).linear.transpose * (axisRotation u s c).linear = 1 := by
  obtain ⟨x, y, z⟩ := u
  have h : x * x + y * y + z * z = 1 := hu
  ext i j
  fin_cases i <;> fin_cases j <;>
    simp only [Mat4.linear, axisRotation, Matrix.mul_apply, Matrix.transpose_apply, Matrix.one_apply,
      Fin.sum_univ_three, Matrix.of_apply, Matrix.cons_val, Fin.reduceFinMk, Fin.reduceEq, if_true, if_false]
  · linear_combination (1 - x * x) * hs + (s ^ 2 + (1 - c) ^ 2 * x * x) * h
  · linear_combination (-x * y) * hs + ((1 - c) ^ 2 * x * y) * h
  · linear_combination (-x * z) * hs + ((1 - c) ^ 2 * x * z) * h
  · linear_combination (-y * x) * hs + ((1 - c) ^ 2 * y * x) * h
  · linear_combination (1 - y * y) * hs + (s ^ 2 + (1 - c) ^ 2 * y * y) * h
  · linear_combination (-y * z) * hs + ((1 - c) ^ 2 * y * z) * h
  · linear_combination (-z * x) * hs + ((1 - c) ^ 2 * z * x) * h
  · linear_combination (-z * y) * hs + ((1 - c) ^ 2 * z * y) * h
  · linear_combination (1 - z * z) * hs + (s ^ 2 + (1 - c) ^ 2 * z * z) * h

theorem det_linear_axisRotation (hu : u.normSq = 1) (hs : s * s + c * c = 1) :
    (axisRotation u s c).linear.det = 1 := by
  obtain ⟨x, y, z⟩ := u
  have h : x * x + y * y + z * z = 1 := hu
  rw [Matrix.det_fin_three]
  simp only [Mat4.linear, axisRotation, Matrix.of_apply, Matrix.cons_val]
  linear_combination hs + (s ^ 2 + (1 - c) * (c ^ 2 + s ^ 2 * (x * x + y * y + z * z))) * h

end

/-! ## Axes of any length -/

/-- Ordered fields with exact lengths, sines and cosines, in which nothing is infinite. The real numbers are
one. -/
class GeometricField (α : Type) extends ExactField α, LinearOrder α, IsStrictOrderedRing α where
  isFinite_eq_true (a : α) : Scalar.isFinite a = true
  norm_nonneg (v : Vec3 α) : 0 ≤ v.norm
  norm_mul_norm (v : Vec3 α) : v.norm * v.norm = v.normSq
  sin_mul_sin_add (angle : α) : Scalar.sin angle * Scalar.sin angle + Scalar.cos angle * Scalar.cos angle = 1
  sin_zero : Scalar.sin (0 : α) = 0
  cos_zero : Scalar.cos (0 : α) = 1
  sin_neg (angle : α) : Scalar.sin (-angle) = -Scalar.sin angle
  cos_neg (angle : α) : Scalar.cos (-angle) = Scalar.cos angle

namespace GeometricField

variable [GeometricField α] {axis u : Vec3 α}

theorem normSq_pos (h : axis ≠ ⟨0, 0, 0⟩) : 0 < axis.normSq := by
  obtain ⟨x, y, z⟩ := axis
  simp only [ne_eq, Vec3.mk.injEq, not_and_or] at h
  have hx := mul_self_nonneg x
  have hy := mul_self_nonneg y
  have hz := mul_self_nonneg z
  rw [Vec3.normSq]
  rcases h with h | h | h
  · have := mul_self_pos.2 h
    linarith
  · have := mul_self_pos.2 h
    linarith
  · have := mul_self_pos.2 h
    linarith

theorem norm_pos (h : axis ≠ ⟨0, 0, 0⟩) : 0 < axis.norm := by
  refine lt_of_le_of_ne (norm_nonneg axis) fun hzero => ?_
  have hsq := norm_mul_norm axis
  rw [← hzero, zero_mul] at hsq
  exact absurd hsq (normSq_pos h).ne

theorem hasDirection_of_ne (h : axis ≠ ⟨0, 0, 0⟩) : hasDirection axis = true := by
  have hne : (axis.norm == 0) = false := beq_false_of_ne (norm_pos h).ne'
  rw [hasDirection, hne, isFinite_eq_true]
  rfl

theorem rotate?_of_ne (h : axis ≠ ⟨0, 0, 0⟩) (t : Mat4 α) (angle : α) :
    rotate? t angle axis = some (t * rotation (axis.divide axis.norm) angle) := by
  rw [rotate?, if_pos (hasDirection_of_ne h)]

/-- The vector along an axis has the length one. -/
theorem normSq_divide_norm (h : axis ≠ ⟨0, 0, 0⟩) : (axis.divide axis.norm).normSq = 1 := by
  have hne := (norm_pos h).ne'
  have hsq := norm_mul_norm axis
  rw [Vec3.normSq] at hsq ⊢
  simp only [Vec3.divide]
  field_simp
  linear_combination -hsq

theorem scaled_divide_norm (h : axis ≠ ⟨0, 0, 0⟩) : (axis.divide axis.norm).scaled axis.norm = axis := by
  have hne := (norm_pos h).ne'
  simp only [Vec3.divide, Vec3.scaled, mul_div_cancel₀ _ hne]

theorem norm_scaled (k : α) (v : Vec3 α) : (v.scaled k).norm = |k| * v.norm := by
  have hnonneg : 0 ≤ |k| * v.norm := mul_nonneg (abs_nonneg k) (norm_nonneg v)
  refine (mul_self_inj_of_nonneg (norm_nonneg _) hnonneg).1 ?_
  have hsq := norm_mul_norm v
  have habs := abs_mul_abs_self k
  rw [norm_mul_norm]
  rw [Vec3.normSq] at hsq ⊢
  simp only [Vec3.scaled]
  linear_combination (-(v.norm * v.norm)) * habs - k * k * hsq

theorem scaled_ne_zero {k : α} (hk : k ≠ 0) (h : axis ≠ ⟨0, 0, 0⟩) : axis.scaled k ≠ ⟨0, 0, 0⟩ := by
  obtain ⟨x, y, z⟩ := axis
  intro hzero
  simp only [Vec3.scaled, Vec3.mk.injEq, mul_eq_zero, hk, false_or] at hzero
  obtain ⟨rfl, rfl, rfl⟩ := hzero
  exact h rfl

/-- The special case of no angle is no special case. -/
theorem rotation_eq_axisRotation (u : Vec3 α) (angle : α) :
    rotation u angle = axisRotation u (Scalar.sin angle) (Scalar.cos angle) := by
  unfold rotation
  split
  · rename_i hzero
    rw [eq_of_beq hzero, sin_zero, cos_zero, axisRotation_zero_one]
  · rfl

theorem rotation_opposite (u : Vec3 α) (angle : α) :
    rotation ⟨-u.x, -u.y, -u.z⟩ angle = rotation u (-angle) := by
  rw [rotation_eq_axisRotation, rotation_eq_axisRotation, axisRotation_opposite, sin_neg, cos_neg]

theorem rotate?_scaled_of_pos {k : α} (hk : 0 < k) (h : axis ≠ ⟨0, 0, 0⟩) (t : Mat4 α) (angle : α) :
    rotate? t angle (axis.scaled k) = rotate? t angle axis := by
  have hunit : (axis.scaled k).divide (axis.scaled k).norm = axis.divide axis.norm := by
    rw [norm_scaled, abs_of_pos hk]
    simp only [Vec3.scaled, Vec3.divide, mul_div_mul_left _ _ hk.ne']
  rw [rotate?_of_ne (scaled_ne_zero hk.ne' h), rotate?_of_ne h, hunit]

theorem rotate?_scaled_of_neg {k : α} (hk : k < 0) (h : axis ≠ ⟨0, 0, 0⟩) (t : Mat4 α) (angle : α) :
    rotate? t angle (axis.scaled k) = rotate? t (-angle) axis := by
  have hunit : (axis.scaled k).divide (axis.scaled k).norm =
      ⟨-(axis.divide axis.norm).x, -(axis.divide axis.norm).y, -(axis.divide axis.norm).z⟩ := by
    rw [norm_scaled, abs_of_neg hk]
    simp only [Vec3.scaled, Vec3.divide, neg_mul, div_neg, mul_div_mul_left _ _ hk.ne]
  rw [rotate?_of_ne (scaled_ne_zero hk.ne h), rotate?_of_ne h, hunit, rotation_opposite]

/-- A rotation preserves distances, being linear. -/
theorem distance_rotation (hu : u.normSq = 1) (angle : α) (p q : Vec3 α) :
    (transformPoint (rotation u angle) p).distance (transformPoint (rotation u angle) q) = p.distance q := by
  have hlinear : (transformPoint (rotation u angle) p).sub (transformPoint (rotation u angle) q) =
      (rotation u angle).linearPart (p.sub q) := by
    rw [transformPoint_rotation, transformPoint_rotation]
    simp only [Vec3.sub, Mat4.linearPart, Vec3.mk.injEq]
    refine ⟨?_, ?_, ?_⟩ <;> ring
  have hsq := normSq_linearPart_axisRotation hu (sin_mul_sin_add angle) (p.sub q)
  rw [Vec3.distance, hlinear, rotation_eq_axisRotation]
  exact congrArg Scalar.sqrt hsq

/-- Turning about an axis is a rotation about it, whatever length the axis has but zero. Its linear part is
orthogonal with determinant one and maps the axis to itself, so it preserves distances. A positive factor
of the axis does not matter, and a negative one turns the other way round. Turning twice about one axis is
turning once, the sine and the cosine being those of the sum of the angles; and a turn by nothing is what
the general formula gives for it. -/
theorem rotate?_isRotation (h : axis ≠ ⟨0, 0, 0⟩) (angle : α) :
    (∃ r, rotate? Mat4.identity angle axis = some r ∧
      r.linear.transpose * r.linear = 1 ∧ r.linear.det = 1 ∧ r.linearPart axis = axis ∧
      (∀ p, transformPoint r p = r.linearPart p) ∧
      ∀ p q, (transformPoint r p).distance (transformPoint r q) = p.distance q) ∧
    (∀ (t : Mat4 α) (k : α),
      (0 < k → rotate? t angle (axis.scaled k) = rotate? t angle axis) ∧
      (k < 0 → rotate? t angle (axis.scaled k) = rotate? t (-angle) axis)) ∧
    (∀ (t : Mat4 α) (other : α), (rotate? t angle axis).bind (rotate? · other axis) =
      some (t * axisRotation (axis.divide axis.norm)
        (Scalar.sin angle * Scalar.cos other + Scalar.cos angle * Scalar.sin other)
        (Scalar.cos angle * Scalar.cos other - Scalar.sin angle * Scalar.sin other))) ∧
    ∀ u : Vec3 α, rotation u 0 = axisRotation u 0 1 := by
  have hu := normSq_divide_norm h
  have hs := sin_mul_sin_add angle
  refine ⟨⟨rotation (axis.divide axis.norm) angle, ?_, ?_, ?_, ?_, ?_, ?_⟩,
    fun t k => ⟨fun hk => rotate?_scaled_of_pos hk h t angle, fun hk => rotate?_scaled_of_neg hk h t angle⟩,
    fun t other => ?_, fun u => ?_⟩
  · rw [rotate?_of_ne h, Mat4.identity_mul]
  · rw [rotation_eq_axisRotation, transpose_mul_linear_axisRotation hu hs]
  · rw [rotation_eq_axisRotation, det_linear_axisRotation hu hs]
  · have hkept := linearPart_axisRotation_scaled hu (Scalar.sin angle) (Scalar.cos angle) axis.norm
    rwa [scaled_divide_norm h, ← rotation_eq_axisRotation] at hkept
  · exact transformPoint_rotation _ angle
  · exact distance_rotation hu angle
  · rw [rotate?_of_ne h, Option.bind_some, rotate?_of_ne h, Mat4.mul_assoc, rotation_eq_axisRotation,
      rotation_eq_axisRotation, axisRotation_mul hu]
  · rw [rotation_eq_axisRotation, sin_zero, cos_zero]

end GeometricField

/-! ## Real numbers -/

noncomputable instance : GeometricField ℝ :=
  { (inferInstance : Field ℝ), (inferInstance : LinearOrder ℝ),
    (inferInstance : IsStrictOrderedRing ℝ) with
    div := (· / ·)
    beq := fun a b => decide (a = b)
    eq_of_beq := fun h => of_decide_eq_true h
    rfl := decide_eq_true rfl
    sqrt := Real.sqrt
    sin := Real.sin
    cos := Real.cos
    isFinite := fun _ => true
    radiansPerDegree := Real.pi / 180
    isFinite_eq_true := fun _ => rfl
    norm_nonneg := fun _ => Real.sqrt_nonneg _
    norm_mul_norm := fun v => Real.mul_self_sqrt
      (add_nonneg (add_nonneg (mul_self_nonneg v.x) (mul_self_nonneg v.y)) (mul_self_nonneg v.z))
    sin_mul_sin_add := fun angle => by simpa only [sq] using Real.sin_sq_add_cos_sq angle
    sin_zero := Real.sin_zero
    cos_zero := Real.cos_zero
    sin_neg := Real.sin_neg
    cos_neg := Real.cos_neg }

namespace GeometricField

/-- A quarter turn about an axis of the length three; about the axis turned over and doubled, it is the
quarter turn back. -/
theorem rotate?_isRotation_quarter :
    (⟨1, 2, 2⟩ : Vec3 ℝ) ≠ ⟨0, 0, 0⟩ ∧
    (∃ r, rotate? Mat4.identity (Real.pi / 2) (⟨1, 2, 2⟩ : Vec3 ℝ) = some r ∧
      r.linear = !![1 / 9, -(4 / 9), 8 / 9; 8 / 9, 4 / 9, 1 / 9; -(4 / 9), 7 / 9, 4 / 9] ∧
      r.linear.transpose * r.linear = 1 ∧ r.linear.det = 1 ∧ r.linearPart ⟨1, 2, 2⟩ = ⟨1, 2, 2⟩) ∧
    rotate? Mat4.identity (Real.pi / 2) ((⟨1, 2, 2⟩ : Vec3 ℝ).scaled (-2)) =
      rotate? Mat4.identity (-(Real.pi / 2)) (⟨1, 2, 2⟩ : Vec3 ℝ) := by
  have h : (⟨1, 2, 2⟩ : Vec3 ℝ) ≠ ⟨0, 0, 0⟩ := by simp
  have hnorm : (⟨1, 2, 2⟩ : Vec3 ℝ).norm = 3 :=
    (mul_self_inj_of_nonneg (norm_nonneg _) (by norm_num)).1 (by rw [norm_mul_norm]; norm_num [Vec3.normSq])
  have hsin : Scalar.sin (Real.pi / 2) = (1 : ℝ) := Real.sin_pi_div_two
  have hcos : Scalar.cos (Real.pi / 2) = (0 : ℝ) := Real.cos_pi_div_two
  obtain ⟨⟨r, hr, horthogonal, hdet, haxis, -, -⟩, hscaled, -, -⟩ := rotate?_isRotation h (Real.pi / 2)
  refine ⟨h, ⟨r, hr, ?_, horthogonal, hdet, haxis⟩, (hscaled Mat4.identity (-2)).2 (by norm_num)⟩
  rw [rotate?_of_ne h, Mat4.identity_mul, rotation_eq_axisRotation, hnorm, hsin, hcos,
    Option.some.injEq] at hr
  subst hr
  norm_num [Mat4.linear, axisRotation, Vec3.divide]

end GeometricField

end SceneScript.Space
