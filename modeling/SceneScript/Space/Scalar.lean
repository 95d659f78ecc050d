/-
The numbers that geometry is done with. What a transform needs of them is listed once, so the
same definitions serve binary64 values, whose order of operations matters, and an exact field.
-/
namespace SceneScript.Space

/-- Arithmetic, a square root, and sine and cosine of an angle in radians. -/
class Scalar (α : Type) extends Zero α, One α, Add α, Sub α, Mul α, Div α, NatCast α, BEq α where
  sqrt : α → α
  sin : α → α
  cos : α → α
  /-- Neither infinite nor an undefined result. -/
  isFinite : α → Bool
  /-- The factor that turns degrees into radians. -/
  radiansPerDegree : α

instance : Scalar Float where
  zero := 0.0
  one := 1.0
  natCast := Float.ofNat
  sqrt := Float.sqrt
  sin := Float.sin
  cos := Float.cos
  isFinite := Float.isFinite
  radiansPerDegree := 3.141592653589793 / 180.0

end SceneScript.Space
