import Nonbonded.Box
import Nonbonded.Reply

/-!
# Particle systems

A `ParticleSystem` is a snapshot of the particles a computation acts on: their
box, the names of their types, and one array each of positions, types and,
where given, diameters and charges.  The type keeps the arrays equally long and
every type below the number of names, so an accessor faults only past the last
particle.  Diameters and charges that were never given read as zero.
-/

namespace Nonbonded

/-- The per-particle arrays of a system. -/
inductive ParticleArray where
  | positions
  | types
  | diameters
  | charges
  deriving DecidableEq

/-- Why arrays do not describe a system. -/
inductive SystemError where
  | lengthMismatch (array : ParticleArray) (expected found : Nat)
  | typeOutOfRange (index type typeCount : Nat)
  | noTypes
  deriving DecidableEq

/-- Particles in a periodic box. -/
structure ParticleSystem (α : Type) [Scalar α] where
  box : Box α
  typeNames : Array String
  positions : Array (Vec3 α)
  types : Array Nat
  diameters : Option (Array α)
  charges : Option (Array α)
  typeNames_pos : 0 < typeNames.size
  size_types : types.size = positions.size
  type_lt : ∀ type ∈ types, type < typeNames.size
  size_diameters : ∀ values ∈ diameters, values.size = positions.size
  size_charges : ∀ values ∈ charges, values.size = positions.size

namespace ParticleSystem

variable {α : Type} [Scalar α]

/-- The system of the given particles, without diameters and charges. -/
def create (box : Box α) (typeNames : Array String) (positions : Array (Vec3 α))
    (types : Array Nat) : Except SystemError (ParticleSystem α) :=
  if named : 0 < typeNames.size then
    if sameSize : types.size = positions.size then
      match first : types.zipIdx.find? (typeNames.size ≤ ·.1) with
      | some (type, index) => .error (.typeOutOfRange index type typeNames.size)
      | none =>
          .ok
            { box, typeNames, positions, types
              diameters := none
              charges := none
              typeNames_pos := named
              size_types := sameSize
              type_lt := by
                intro type member
                obtain ⟨index, inRange, rfl⟩ := Array.getElem_of_mem member
                have listed : (types[index], index) ∈ types.zipIdx := by
                  simp [Array.mem_zipIdx_iff_getElem?]
                simpa using Array.find?_eq_none.1 first _ listed
              size_diameters := by simp
              size_charges := by simp }
    else .error (.lengthMismatch .types positions.size types.size)
  else .error .noTypes

/-- The number of particles. -/
def size (system : ParticleSystem α) : Nat :=
  system.positions.size

/-- The number of particle types. -/
def typeCount (system : ParticleSystem α) : Nat :=
  system.typeNames.size

/-- The first type of a given name. -/
def typeNamed? (system : ParticleSystem α) (name : String) : Option Nat :=
  system.typeNames.findIdx? (· == name)

/-- Replace the diameters. -/
def withDiameters (system : ParticleSystem α) (values : Array α) :
    Reply SystemError Unit (ParticleSystem α) :=
  if sameSize : values.size = system.positions.size then
    .done ()
      { system with
        diameters := some values
        size_diameters := by simpa using sameSize }
  else .refuse (.lengthMismatch .diameters system.size values.size) system

/-- Replace the charges. -/
def withCharges (system : ParticleSystem α) (values : Array α) :
    Reply SystemError Unit (ParticleSystem α) :=
  if sameSize : values.size = system.positions.size then
    .done ()
      { system with
        charges := some values
        size_charges := by simpa using sameSize }
  else .refuse (.lengthMismatch .charges system.size values.size) system

/-- Move every particle. -/
def setPositions (system : ParticleSystem α) (positions : Array (Vec3 α)) :
    Reply SystemError Unit (ParticleSystem α) :=
  if sameSize : positions.size = system.positions.size then
    .done ()
      { system with
        positions
        size_types := by rw [system.size_types, sameSize]
        size_diameters := by simpa [sameSize] using system.size_diameters
        size_charges := by simpa [sameSize] using system.size_charges }
  else .refuse (.lengthMismatch .positions system.size positions.size) system

/-- Where a particle is. -/
def position (system : ParticleSystem α) (particle : Nat) : Except Fault (Vec3 α) :=
  entryAt system.positions particle

/-- The type of a particle. -/
def typeOf (system : ParticleSystem α) (particle : Nat) : Except Fault Nat :=
  entryAt system.types particle

/-- The diameter of a particle. -/
def diameter (system : ParticleSystem α) (particle : Nat) : Except Fault α :=
  match system.diameters with
  | some values => entryAt values particle
  | none => .ok 0

/-- The charge of a particle. -/
def charge (system : ParticleSystem α) (particle : Nat) : Except Fault α :=
  match system.charges with
  | some values => entryAt values particle
  | none => .ok 0

theorem exists_position {system : ParticleSystem α} {particle : Nat}
    (inRange : particle < system.size) : ∃ here, system.position particle = .ok here :=
  ⟨_, entryAt_of_lt inRange⟩

theorem exists_typeOf {system : ParticleSystem α} {particle : Nat}
    (inRange : particle < system.size) :
    ∃ type < system.typeCount, system.typeOf particle = .ok type :=
  have listed : particle < system.types.size := by rw [system.size_types]; exact inRange
  ⟨_, system.type_lt _ (Array.getElem_mem listed), entryAt_of_lt listed⟩

theorem exists_diameter {system : ParticleSystem α} {particle : Nat}
    (inRange : particle < system.size) : ∃ value, system.diameter particle = .ok value := by
  unfold diameter
  cases given : system.diameters with
  | none => exact ⟨0, rfl⟩
  | some values =>
      have listed : particle < values.size := by
        rw [system.size_diameters values (by simp [given])]
        exact inRange
      exact ⟨_, entryAt_of_lt listed⟩

theorem exists_charge {system : ParticleSystem α} {particle : Nat}
    (inRange : particle < system.size) : ∃ value, system.charge particle = .ok value := by
  unfold charge
  cases given : system.charges with
  | none => exact ⟨0, rfl⟩
  | some values =>
      have listed : particle < values.size := by
        rw [system.size_charges values (by simp [given])]
        exact inRange
      exact ⟨_, entryAt_of_lt listed⟩

end ParticleSystem

end Nonbonded
