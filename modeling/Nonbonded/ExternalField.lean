import Nonbonded.Error

/-!
# External fields

A field gives every particle an energy that depends on its type, position and
charge.  The total over a system that is one domain of a larger one is handed
to a reduction, which combines the totals of all domains; for a single domain
the reduction is the identity.
-/

namespace Nonbonded

/-- An external field. -/
structure ExternalField (α : Type) [Scalar α] where
  /-- The number of particle types the field has strengths for. -/
  typeCount : Nat
  /-- The energy of a particle in a box, from its type, position and charge.
  The flag marks a configuration that is only proposed. -/
  particleEnergy : Box α → Nat → Vec3 α → α → Bool → Except Fault α

namespace ExternalField

variable {α : Type} [Scalar α]

/-- The energy of one particle of a system. -/
def energyOf (field : ExternalField α) (system : ParticleSystem α) (trial : Bool)
    (particle : Nat) : Except Fault α := do
  let type ← system.typeOf particle
  let position ← system.position particle
  let charge ← system.charge particle
  field.particleEnergy system.box type position charge trial

/-- The energy of all particles of a system, reduced over all domains.  The
reduction may have a state, such as a record of what it was given: it gives a
value and leaves a state. -/
def totalEnergyFrom {σ : Type} (field : ExternalField α) (system : ParticleSystem α)
    (reduce : α → σ → α × σ) (trial : Bool) (state : σ) :
    Except Fault (Reply (Error α) α σ) :=
  if field.typeCount < system.typeCount then
    .ok (.refuse (.typeCountMismatch system.typeCount field.typeCount) state)
  else do
    let energies ← (List.range system.size).mapM (field.energyOf system trial)
    let (total, left) := reduce (Scalar.sum energies) state
    return .done total left

/-- The energy of all particles of a system, for a reduction without a
state. -/
def totalEnergy (field : ExternalField α) (system : ParticleSystem α) (reduce : α → α)
    (trial : Bool) : Except Fault (Except (Error α) α) :=
  (field.totalEnergyFrom system (fun total state => (reduce total, state)) trial ()).map (·.answer)

end ExternalField

end Nonbonded
