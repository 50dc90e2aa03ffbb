import Nonbonded.Law.LennardJones

/-!
# The Lennard-Jones law between particles of different size

The Lennard-Jones law at `r - Δ`, where `Δ` is the mean diameter of the two
particles less one, so that particles of different sizes share one set of
parameters.
-/

namespace Nonbonded

namespace ShiftedLennardJones

open LennardJones

variable {α : Type} [Scalar α]

/-- The displacement of the radius: zero until diameters are known. -/
def displacement : Option (α × α) → α
  | some (first, second) => Scalar.half * (first + second) - 1
  | none => 0

/-- The inverse sixth power of a distance given by its inverse. -/
def inverse6 (inverse : α) : α :=
  cube (inverse * inverse)

/-- The interaction at a squared separation, with the energy as the law defines
it. -/
def interactionAt (c : Coefficients α) (delta rsq : α) : Interaction α :=
  let inverse := 1 / Scalar.sqrt rsq
  let displaced := 1 / (1 / inverse - delta)
  let sixth := inverse6 displaced
  { forceOverDistance := inverse * displaced * sixth * c.steepness sixth
    energy := c.energy sixth }

/-- The energy at a squared cutoff. -/
def cutoffEnergy (c : Coefficients α) (delta rcutsq : α) : α :=
  c.energy (inverse6 (1 / (Scalar.sqrt rcutsq - delta)))

end ShiftedLennardJones

variable {α : Type} [Scalar α]

/-- The Lennard-Jones law with the radius displaced by the mean diameter. -/
def PairLaw.shiftedLennardJones : PairLaw α where
  Params := LennardJones.Params α
  unset := ⟨0, 0, 0⟩
  name := "slj"
  needsDiameter := true
  needsCharge := false
  evaluate params pair shifted :=
    let c := params.coefficients
    let delta := ShiftedLennardJones.displacement pair.diameters
    if pair.rcutsq ≤ pair.rsq || c.repulsive == 0 then none
    else
      some ((ShiftedLennardJones.interactionAt c delta pair.rsq).lower shifted
        (ShiftedLennardJones.cutoffEnergy c delta pair.rcutsq))

end Nonbonded
