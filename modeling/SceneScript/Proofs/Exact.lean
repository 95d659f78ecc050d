/-
Exact numbers: scalars whose sums and products are those of a commutative ring. Over them the product of
matrices is associative and the identity is neutral, so placements that are built step by step can be
placed once more as a whole. Where quotients and comparisons come into it, they are those of a field.
Nothing is asked of square roots, sines and cosines. Binary64 numbers are not exact; fractions are, with
angles that count quarter turns.
-/
import Mathlib.Algebra.Field.Rat
import Mathlib.Data.Rat.Floor
import Mathlib.Data.Rat.Sqrt
import Mathlib.Tactic.Ring
import SceneScript.Number.Numeral
import SceneScript.Space.Transform
namespace SceneScript.Space

/-- Scalars that are calculated with exactly. -/
class ExactScalar (α : Type) extends Scalar α, CommRing α

/-- Exact scalars that are divided exactly as well, and that are equal where they compare as equal. -/
class ExactField (α : Type) extends ExactScalar α, Field α, LawfulBEq α

/-! ## Products of matrices -/

namespace Mat4

variable {α : Type} [ExactScalar α]

theorem rowMul_mul (r : Vec4 α) (a b : Mat4 α) : rowMul r (a * b) = rowMul (rowMul r a) b := by
  simp only [rowMul, mul_def, mul, transpose, Vec4.dot, Vec4.mk.injEq]
  refine ⟨?_, ?_, ?_, ?_⟩ <;> ring

protected theorem mul_assoc (a b c : Mat4 α) : a * b * c = a * (b * c) := by
  show mul (mul a b) c = mul a (b * c)
  simp only [mul, rowMul_mul]

theorem rowMul_identity (r : Vec4 α) : rowMul r identity = r := by
  simp only [rowMul, transpose, identity, Vec4.dot, mul_one, mul_zero, add_zero, zero_add]

protected theorem mul_identity (a : Mat4 α) : a * identity = a := by
  show mul a identity = a
  simp only [mul, rowMul_identity]

end Mat4

/-! ## Steps behind a placement -/

section
variable {α : Type} [ExactScalar α] (b t : Mat4 α)

theorem translate_mul (offset : Vec3 α) : translate (b * t) offset = b * translate t offset :=
  Mat4.mul_assoc b t _

theorem scale_mul (factors : Vec3 α) : scale (b * t) factors = b * scale t factors :=
  Mat4.mul_assoc b t _

theorem rotate?_mul (angle : α) (axis : Vec3 α) :
    rotate? (b * t) angle axis = (rotate? t angle axis).map (b * ·) := by
  unfold rotate?
  split
  · rw [Option.map_some, Mat4.mul_assoc]
  · rfl

end

/-! ## Fractions -/

/-- The sine of a number of quarter turns. -/
def quarterSine (turns : ℤ) : ℚ :=
  if turns % 4 = 1 then 1 else if turns % 4 = 3 then -1 else 0

/-- A fraction as an angle counts quarter turns, of which only the whole ones matter. -/
instance : ExactField ℚ :=
  { (inferInstance : Field ℚ) with
    div := (· / ·)
    beq := (· == ·)
    eq_of_beq := fun h => by simpa using h
    rfl := by simp
    sqrt := Rat.sqrt
    sin := fun angle => quarterSine ⌊angle⌋
    cos := fun angle => quarterSine (⌊angle⌋ + 1)
    isFinite := fun _ => true
    radiansPerDegree := 1 / 90 }

end SceneScript.Space

namespace SceneScript.Number

/-- The value of a numeral, if it is finite. -/
def Numeral.toRat? (n : Numeral) : Option ℚ :=
  match n.magnitude with
  | .decimal d =>
    let value := (d.integer * 10 ^ d.exponent.toNat : ℚ) / 10 ^ (-d.exponent).toNat
    some (if n.negative then -value else value)
  | .infinity | .nan => none

instance : FromWord ℚ where
  ofWord? word := (numeral? word.toList).bind Numeral.toRat?

end SceneScript.Number
