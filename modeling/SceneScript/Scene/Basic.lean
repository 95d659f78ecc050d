/-
Scenes: the view, the lights and the placed objects that a script describes. Equality compares
numbers as numbers, so the two zeros are equal and an undefined value differs from itself.
-/
import SceneScript.Space.Matrix
namespace SceneScript

open Space

/-- A point light. -/
structure Light (α : Type) where
  position : Vec3 α
  color : Vec3 α
deriving Repr, BEq

/-- How a surface answers light. -/
structure Material (α : Type) where
  diffuse : Vec3 α
  specular : Vec3 α
  shininess : α
  refraction : Vec3 α
  refractiveIndex : α
deriving Repr, BEq

namespace Material

variable {α : Type}

/-- The same surface with another refraction. -/
def withRefraction (m : Material α) (color : Vec3 α) (index : α) : Material α :=
  { m with refraction := color, refractiveIndex := index }

variable [Scalar α]

/-- A surface that refracts nothing. -/
def ofSurface (diffuse specular : Vec3 α) (shininess : α) : Material α where
  diffuse := diffuse
  specular := specular
  shininess := shininess
  refraction := Vec3.replicate 0
  refractiveIndex := 0

/-- The material of a script that sets none: white, and shiny to the degree five. -/
def initial : Material α := ofSurface (Vec3.replicate 1) (Vec3.replicate 1) ((5 : Nat) : α)

end Material

/-- The unit sphere in its place. -/
structure Sphere (α : Type) where
  transform : Mat4 α
  material : Material α
deriving Repr, BEq

/-- What can stand in a scene. -/
inductive SceneObject (α : Type) where
  | sphere (shape : Sphere α)
deriving Repr, BEq

namespace SceneObject

variable {α : Type}

/-- Where an object stands. -/
def transform : SceneObject α → Mat4 α
  | .sphere s => s.transform

/-- What an object is made of. -/
def material : SceneObject α → Material α
  | .sphere s => s.material

end SceneObject

/-- A scene. The image is a square, so one size is both its width and its height. -/
structure Scene (α : Type) where
  imageSize : Int32
  cornerDistance : α
  background : Vec3 α
  ambient : Vec3 α
  lights : Array (Light α)
  objects : Array (SceneObject α)
deriving Repr, BEq

namespace Scene

variable {α : Type}

/-- The scene of a script without commands. -/
def empty [Scalar α] : Scene α where
  imageSize := 0
  cornerDistance := 0
  background := Vec3.replicate 0
  ambient := Vec3.replicate 0
  lights := #[]
  objects := #[]

/-- A light behind those already there. -/
def addLight (s : Scene α) (light : Light α) : Scene α :=
  { s with lights := s.lights.push light }

/-- An object behind those already there. -/
def addObject (s : Scene α) (object : SceneObject α) : Scene α :=
  { s with objects := s.objects.push object }

end Scene

end SceneScript
