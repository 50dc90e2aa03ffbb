import Nonbonded.Law

/-!
# The Lennard-Jones law

`V(r) = 4 ε [(σ / r) ^ 12 - α (σ / r) ^ 6]`, where `α` scales the attraction.
With the cutoff at the minimum of the potential and shifted energies it is
purely repulsive.
-/

namespace Nonbonded.LennardJones

/-- Depth, diameter and weight of the attraction. -/
structure Params (α : Type) where
  epsilon : α
  sigma : α
  alpha : α

/-- The factors of the inverse twelfth and inverse sixth power. -/
structure Coefficients (α : Type) where
  repulsive : α
  attractive : α

variable {α : Type} [Scalar α]

/-- The sixth power. -/
def pow6 (x : α) : α :=
  let square := x * x
  let fourth := square * square
  square * fourth

/-- The factors that belong to given parameters. -/
def Params.coefficients (params : Params α) : Coefficients α :=
  let sigma6 := pow6 params.sigma
  { repulsive := 4 * params.epsilon * sigma6 * sigma6
    attractive := params.alpha * 4 * params.epsilon * sigma6 }

namespace Coefficients

/-- The energy, given the inverse sixth power of the distance. -/
def energy (c : Coefficients α) (inverse6 : α) : α :=
  inverse6 * (c.repulsive * inverse6 - c.attractive)

/-- The slope of the energy in the inverse sixth power, weighted as the force
needs it. -/
def steepness (c : Coefficients α) (inverse6 : α) : α :=
  12 * c.repulsive * inverse6 - 6 * c.attractive

end Coefficients

/-- The cube. -/
def cube (x : α) : α :=
  x * x * x

/-- The energy at a squared separation. -/
def energyAt (c : Coefficients α) (rsq : α) : α :=
  c.energy (cube (1 / rsq))

/-- The interaction at a squared separation, with the energy as the law defines
it. -/
def interactionAt (c : Coefficients α) (rsq : α) : Interaction α :=
  let inverse2 := 1 / rsq
  let inverse6 := cube inverse2
  { forceOverDistance := inverse2 * inverse6 * c.steepness inverse6
    energy := c.energy inverse6 }

/-- The cutoff at the minimum of the potential, which leaves only the
repulsion. -/
def repulsiveCutoff (sigma : α) : α :=
  Scalar.pow 2 (1 / 6) * sigma

end Nonbonded.LennardJones

namespace Nonbonded

variable {α : Type} [Scalar α]

/-- The Lennard-Jones law. -/
def PairLaw.lennardJones : PairLaw α where
  Params := LennardJones.Params α
  unset := ⟨0, 0, 0⟩
  name := "lj"
  needsDiameter := false
  needsCharge := false
  evaluate params pair shifted :=
    let c := params.coefficients
    if pair.rcutsq ≤ pair.rsq || c.repulsive == 0 then none
    else
      some ((LennardJones.interactionAt c pair.rsq).lower shifted
        (LennardJones.energyAt c pair.rcutsq))

end Nonbonded
