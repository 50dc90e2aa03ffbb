import Nonbonded.Interaction

/-!
# Potential laws

A `PairLaw` gives the interaction of two particles from their squared
separation, the squared cutoff and the parameters of their pair of types, and,
for a law that asks for them, their diameters or charges.  A law keeps no
state, so evaluations of different pairs are independent.
-/

namespace Nonbonded

/-- What a law may read about one pair.  Diameters and charges are those of the
first and the second particle, absent when nothing supplied them. -/
structure PairView (α : Type) where
  rsq : α
  rcutsq : α
  diameters : Option (α × α)
  charges : Option (α × α)

/-- A pair potential law. -/
structure PairLaw (α : Type) where
  /-- The parameters kept for every pair of types. -/
  Params : Type
  /-- The parameters of a pair of types for which none were set. -/
  unset : Params
  name : String
  needsDiameter : Bool
  needsCharge : Bool
  /-- The interaction, with its energy lowered to vanish at the cutoff when the
  flag is set; nothing for a pair that does not interact. -/
  evaluate : Params → PairView α → Bool → Option (Interaction α)

end Nonbonded
