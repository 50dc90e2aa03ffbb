import Nonbonded.Contribution
import Nonbonded.Reply

/-!
# Accumulators

One `Contribution` for every particle of a system, summed up over a
computation.  Adding to a particle past the end, and merging buffers of
different sizes, are faults.
-/

namespace Nonbonded

/-- The summed contributions of every particle. -/
structure Accumulators (α : Type) where
  entries : Array (Contribution α)

namespace Accumulators

variable {α : Type}

/-- The buffer of no particles. -/
def empty : Accumulators α :=
  ⟨#[]⟩

/-- The number of particles. -/
def size (acc : Accumulators α) : Nat :=
  acc.entries.size

/-- The contribution of a particle. -/
def entry (acc : Accumulators α) (particle : Nat) : Except Fault (Contribution α) :=
  entryAt acc.entries particle

/-- The force on every particle. -/
def forces (acc : Accumulators α) : Array (Vec3 α) :=
  acc.entries.map (·.force)

/-- The energy of every particle. -/
def energies (acc : Accumulators α) : Array α :=
  acc.entries.map (·.energy)

/-- The virial of every particle. -/
def virials (acc : Accumulators α) : Array α :=
  acc.entries.map (·.virial)

@[simp]
theorem size_forces (acc : Accumulators α) : acc.forces.size = acc.size := by
  simp [forces, size]

@[simp]
theorem size_energies (acc : Accumulators α) : acc.energies.size = acc.size := by
  simp [energies, size]

@[simp]
theorem size_virials (acc : Accumulators α) : acc.virials.size = acc.size := by
  simp [virials, size]

variable [Scalar α]

/-- The buffer of `size` particles that have received nothing. -/
def zeroed (size : Nat) : Accumulators α :=
  ⟨.replicate size .zero⟩

@[simp]
theorem size_zeroed (size : Nat) : (zeroed size : Accumulators α).size = size := by
  simp [zeroed, Accumulators.size]

/-- Add a contribution to one particle. -/
def add (acc : Accumulators α) (particle : Nat) (c : Contribution α) :
    Except Fault (Accumulators α) :=
  if inRange : particle < acc.entries.size then
    .ok ⟨acc.entries.set particle (acc.entries[particle] + c)⟩
  else .error (.outOfRange particle acc.size)

theorem add_of_lt {acc : Accumulators α} {particle : Nat} (inRange : particle < acc.entries.size)
    (c : Contribution α) :
    acc.add particle c = .ok ⟨acc.entries.set particle (acc.entries[particle] + c)⟩ :=
  dif_pos inRange

theorem size_eq_of_add {acc result : Accumulators α} {particle : Nat} {c : Contribution α}
    (added : acc.add particle c = .ok result) : result.size = acc.size := by
  unfold add at added
  split at added
  · cases added
    simp [size]
  · cases added

/-- Add a buffer of the same size entry by entry. -/
def merge (acc other : Accumulators α) : Except Fault (Accumulators α) :=
  if acc.size = other.size then .ok ⟨.zipWith (· + ·) acc.entries other.entries⟩
  else .error (.sizeMismatch acc.size other.size)

theorem merge_of_size_eq {acc other : Accumulators α} (sameSize : acc.size = other.size) :
    acc.merge other = .ok ⟨.zipWith (· + ·) acc.entries other.entries⟩ :=
  if_pos sameSize

/-- The energy of all particles. -/
def totalEnergy (acc : Accumulators α) : α :=
  Scalar.sum acc.energies.toList

/-- The virial of all particles. -/
def totalVirial (acc : Accumulators α) : α :=
  Scalar.sum acc.virials.toList

/-- The force on all particles. -/
def netForce (acc : Accumulators α) : Vec3 α :=
  Vec3.sum acc.forces.toList

end Accumulators

end Nonbonded
