import Nonbonded.ExternalField

/-!
# Uniform fields

A field that is the same everywhere and points along the normal of a plane: a
particle's energy is the strength of its type times its distance from the
plane, counted along the normal.  The normal is kept at unit length, and a
direction too short to be normalized is refused.
-/

namespace Nonbonded

/-- A field along the normal of a plane, with a strength for every particle
type. -/
structure UniformField (α : Type) where
  origin : Vec3 α
  normal : Vec3 α
  strengths : Array α

namespace UniformField

variable {α : Type} [Scalar α]

/-- The length above which a direction can be normalized. -/
def tolerance : α :=
  1 / 4503599627370496

/-- The unit vector along a direction. -/
def normalize (direction : Vec3 α) : Except (Error α) (Vec3 α) :=
  let lengthSq := direction.normSq
  if tolerance * tolerance < lengthSq then .ok (direction.divide (Scalar.sqrt lengthSq))
  else .error (.invalidNormal direction)

/-- The field of strength zero for every type. -/
def create (typeCount : Nat) (origin normal : Vec3 α) : Except (Error α) (UniformField α) := do
  let normal ← normalize normal
  return { origin, normal, strengths := .replicate typeCount 0 }

/-- Move the plane. -/
def setOrigin (field : UniformField α) (origin : Vec3 α) : UniformField α :=
  { field with origin }

/-- Turn the plane. -/
def setNormal (field : UniformField α) (normal : Vec3 α) :
    Reply (Error α) Unit (UniformField α) :=
  match normalize normal with
  | .ok normal => .done () { field with normal }
  | .error error => .refuse error field

/-- The strength of a type. -/
def strength (field : UniformField α) (type : Nat) : Except (Error α) α :=
  match field.strengths[type]? with
  | some value => .ok value
  | none => .error (.unknownType type field.strengths.size)

/-- Set the strength of a type. -/
def setStrength (field : UniformField α) (type : Nat) (value : α) :
    Reply (Error α) Unit (UniformField α) :=
  if inRange : type < field.strengths.size then
    .done () { field with strengths := field.strengths.set type value }
  else .refuse (.unknownType type field.strengths.size) field

/-- The energy of a particle of a type at a position. -/
def energyAt (field : UniformField α) (type : Nat) (position : Vec3 α) : Except Fault α := do
  let strength ← entryAt field.strengths type
  return strength * field.normal.dot (position - field.origin)

/-- The uniform field as an external field, which reads neither the box nor the
charge. -/
def toExternalField (field : UniformField α) : ExternalField α where
  typeCount := field.strengths.size
  particleEnergy _ type position _ _ := field.energyAt type position

end UniformField

end Nonbonded
