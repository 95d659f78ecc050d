/-
Vectors of three and four components and square matrices of four rows. Sums are taken from left
to right and every product enters them, whatever the other factor.
-/
import SceneScript.Space.Scalar
namespace SceneScript.Space

/-! ## Vectors -/

/-- Three components: a point, a direction, scale factors or a colour. -/
structure Vec3 (α : Type) where
  x : α
  y : α
  z : α
deriving Repr, BEq, DecidableEq

/-- Four components: a row or a column of a matrix. -/
structure Vec4 (α : Type) where
  x : α
  y : α
  z : α
  w : α
deriving Repr, BEq, DecidableEq

namespace Vec3

variable {α : Type}

/-- The vector whose components are all `a`. -/
def replicate (a : α) : Vec3 α := ⟨a, a, a⟩

/-- The components in order. -/
def toList (v : Vec3 α) : List α := [v.x, v.y, v.z]

variable [Scalar α]

/-- The length of a vector, from the plain sum of squares. -/
def norm (v : Vec3 α) : α := Scalar.sqrt (v.x * v.x + v.y * v.y + v.z * v.z)

/-- Each component divided by `a`. -/
def divide (v : Vec3 α) (a : α) : Vec3 α := ⟨v.x / a, v.y / a, v.z / a⟩

end Vec3

namespace Vec4

variable {α : Type}

/-- The components in order. -/
def toList (v : Vec4 α) : List α := [v.x, v.y, v.z, v.w]

/-- The sum of the products of components. -/
def dot [Scalar α] (a b : Vec4 α) : α := a.x * b.x + a.y * b.y + a.z * b.z + a.w * b.w

end Vec4

/-! ## Matrices -/

/-- A matrix by its rows. -/
structure Mat4 (α : Type) where
  row0 : Vec4 α
  row1 : Vec4 α
  row2 : Vec4 α
  row3 : Vec4 α
deriving Repr, BEq, DecidableEq

namespace Mat4

variable {α : Type}

/-- The rows in order. -/
def rows (m : Mat4 α) : List (Vec4 α) := [m.row0, m.row1, m.row2, m.row3]

/-- The matrix whose rows are the columns of `m`. -/
def transpose (m : Mat4 α) : Mat4 α where
  row0 := ⟨m.row0.x, m.row1.x, m.row2.x, m.row3.x⟩
  row1 := ⟨m.row0.y, m.row1.y, m.row2.y, m.row3.y⟩
  row2 := ⟨m.row0.z, m.row1.z, m.row2.z, m.row3.z⟩
  row3 := ⟨m.row0.w, m.row1.w, m.row2.w, m.row3.w⟩

@[simp] theorem transpose_transpose (m : Mat4 α) : m.transpose.transpose = m := rfl

variable [Scalar α]

/-- The matrix that maps every point to itself. -/
def identity : Mat4 α where
  row0 := ⟨1, 0, 0, 0⟩
  row1 := ⟨0, 1, 0, 0⟩
  row2 := ⟨0, 0, 1, 0⟩
  row3 := ⟨0, 0, 0, 1⟩

/-- A row times a matrix. -/
def rowMul (r : Vec4 α) (m : Mat4 α) : Vec4 α :=
  let columns := m.transpose
  ⟨r.dot columns.row0, r.dot columns.row1, r.dot columns.row2, r.dot columns.row3⟩

/-- The matrix product. -/
def mul (a b : Mat4 α) : Mat4 α where
  row0 := rowMul a.row0 b
  row1 := rowMul a.row1 b
  row2 := rowMul a.row2 b
  row3 := rowMul a.row3 b

instance : Mul (Mat4 α) := ⟨mul⟩

theorem mul_def (a b : Mat4 α) : a * b = mul a b := rfl

end Mat4

end SceneScript.Space
