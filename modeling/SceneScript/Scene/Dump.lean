/-
The dump of a scene: every field by name, on one line or spread over lines. Numbers are written
with the fewest digits that read back; vectors are matrices of one column, and matrices are
lists of columns.
-/
import SceneScript.Number.Style
import SceneScript.Scene.Basic
import SceneScript.Text.Document
namespace SceneScript

open Space Text

namespace Dump

/-- Numbers from a ten-thousandth up to below ten to the sixteenth are written without an
exponent, and a whole number ends in a point and a zero. -/
def style : Number.Style := ⟨fun power => -4 ≤ power ∧ power < 16, ['.', '0']⟩

/-- A number. -/
def number (x : Float) : Document := .plain (style.number x)

/-- A point: its coordinates. -/
def point (v : Vec3 Float) : Document := .list (v.toList.map number)

/-- A vector: one column. -/
def vector (v : Vec3 Float) : Document := .list [point v]

/-- A matrix: its columns. -/
def matrix (m : Mat4 Float) : Document :=
  .list (m.transpose.rows.map fun column => .list (column.toList.map number))

/-- A light. -/
def light (l : Light Float) : Document :=
  .record "Light" [("position", point l.position), ("color", vector l.color)]

/-- A material. -/
def material (m : Material Float) : Document :=
  .record "Material"
    [("diffuse", vector m.diffuse), ("specular", vector m.specular),
      ("shininess", number m.shininess), ("refraction", vector m.refraction),
      ("refractive_index", number m.refractiveIndex)]

/-- A sphere. -/
def sphere (s : Sphere Float) : Document :=
  .record "Sphere" [("transform", matrix s.transform), ("material", material s.material)]

/-- An object. -/
def object : SceneObject Float → Document
  | .sphere s => .call "Sphere" [sphere s]

/-- A scene. -/
def scene (s : Scene Float) : Document :=
  .record "Scene"
    [("image_size", .plain (Number.integerText s.imageSize.toInt)),
      ("corner_dist", number s.cornerDistance), ("bg_color", vector s.background),
      ("ambient_light", vector s.ambient), ("lights", .list (s.lights.toList.map light)),
      ("objects", .list (s.objects.toList.map object))]

end Dump

namespace Scene

/-- The dump of a scene on one line. -/
def dump (s : Scene Float) : String := String.ofList (Dump.scene s).compact

/-- The dump of a scene spread over lines, without a line feed at its end. -/
def spreadDump (s : Scene Float) : String := String.ofList ((Dump.scene s).spread 0)

end Scene

end SceneScript
