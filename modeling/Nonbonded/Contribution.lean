import Nonbonded.Vec3

/-!
# Contributions to one particle

The force, potential energy and virial that a particle receives, from one
neighbor or in total.
-/

namespace Nonbonded

/-- Force, potential energy and virial of one particle. -/
@[ext]
structure Contribution (α : Type) where
  force : Vec3 α
  energy : α
  virial : α

namespace Contribution

variable {α : Type} [Scalar α]

/-- No force, energy or virial. -/
def zero : Contribution α :=
  ⟨.zero, 0, 0⟩

instance : Add (Contribution α) :=
  ⟨fun a b => ⟨a.force + b.force, a.energy + b.energy, a.virial + b.virial⟩⟩

/-- The contribution to the other particle of the pair: the opposite force, the
same energy and virial. -/
def reaction (c : Contribution α) : Contribution α :=
  { c with force := -c.force }

@[simp]
theorem force_add (a b : Contribution α) : (a + b).force = a.force + b.force :=
  rfl

@[simp]
theorem energy_add (a b : Contribution α) : (a + b).energy = a.energy + b.energy :=
  rfl

@[simp]
theorem virial_add (a b : Contribution α) : (a + b).virial = a.virial + b.virial :=
  rfl

end Contribution

end Nonbonded
