import Nonbonded.Law

/-!
# Screened laws

`V(r) = A exp (-κ r) / r`: the Yukawa law with `A = ε`, and the screened
Coulomb law with `A` a prefactor times the product of the two charges.  Without
screening the latter is the bare Coulomb law.
-/

namespace Nonbonded

namespace Yukawa

/-- Strength and inverse screening length. -/
structure Params (α : Type) where
  epsilon : α
  kappa : α

variable {α : Type} [Scalar α]

/-- The interaction of strength `strength` at a squared separation, with the
energy as the law defines it. -/
def interactionAt (strength kappa rsq : α) : Interaction α :=
  let r := Scalar.sqrt rsq
  let inverse := 1 / r
  let screening := Scalar.exp (-kappa * r)
  { forceOverDistance := strength * screening * (inverse + kappa) / rsq
    energy := strength * screening * inverse }

/-- The screened law of a given strength, switched off at strength zero. -/
def evaluate (strength kappa : α) (pair : PairView α) (shifted : Bool) : Option (Interaction α) :=
  if pair.rcutsq ≤ pair.rsq || strength == 0 then none
  else
    some ((interactionAt strength kappa pair.rsq).lower shifted
      (interactionAt strength kappa pair.rcutsq).energy)

end Yukawa

namespace Coulomb

/-- Prefactor, which carries the units, and inverse screening length. -/
structure Params (α : Type) where
  prefactor : α
  kappa : α

variable {α : Type} [Scalar α]

/-- The product of the charges: zero until charges are known. -/
def chargeProduct : Option (α × α) → α
  | some (first, second) => first * second
  | none => 0

end Coulomb

variable {α : Type} [Scalar α]

/-- The Yukawa law. -/
def PairLaw.yukawa : PairLaw α where
  Params := Yukawa.Params α
  unset := ⟨0, 0⟩
  name := "yukawa"
  needsDiameter := false
  needsCharge := false
  evaluate params := Yukawa.evaluate params.epsilon params.kappa

/-- The screened Coulomb law. -/
def PairLaw.coulomb : PairLaw α where
  Params := Coulomb.Params α
  unset := ⟨0, 0⟩
  name := "coulomb"
  needsDiameter := false
  needsCharge := true
  evaluate params pair :=
    Yukawa.evaluate (params.prefactor * Coulomb.chargeProduct pair.charges) params.kappa pair

end Nonbonded
