import Nonbonded.Law

/-!
# The Gaussian law

`V(r) = ε exp (-r² / 2 σ²)`, switched off for a width of zero.
-/

namespace Nonbonded

namespace Gauss

/-- Height and width. -/
structure Params (α : Type) where
  epsilon : α
  sigma : α

variable {α : Type} [Scalar α]

/-- The bell curve of squared width `sigmaSq` at a squared separation. -/
def bell (sigmaSq rsq : α) : α :=
  Scalar.exp (-Scalar.half * rsq / sigmaSq)

/-- The interaction at a squared separation, with the energy as the law defines
it. -/
def interactionAt (params : Params α) (rsq : α) : Interaction α :=
  let sigmaSq := params.sigma * params.sigma
  let height := bell sigmaSq rsq
  { forceOverDistance := params.epsilon / sigmaSq * height
    energy := params.epsilon * height }

end Gauss

variable {α : Type} [Scalar α]

/-- The Gaussian law. -/
def PairLaw.gauss : PairLaw α where
  Params := Gauss.Params α
  unset := ⟨0, 0⟩
  name := "gauss"
  needsDiameter := false
  needsCharge := false
  evaluate params pair shifted :=
    if pair.rcutsq ≤ pair.rsq || params.sigma == 0 then none
    else
      some ((Gauss.interactionAt params pair.rsq).lower shifted
        (Gauss.interactionAt params pair.rcutsq).energy)

end Nonbonded
