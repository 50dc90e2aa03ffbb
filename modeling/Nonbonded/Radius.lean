import Nonbonded.Scalar

/-!
# Radii of a type pair

A pair of types has a cutoff radius and an onset radius, where smoothing
begins.  A radius that may be set is finite and not negative.
-/

namespace Nonbonded

/-- Which radius of a type pair is meant. -/
inductive Radius where
  | cutoff
  | onset
  deriving DecidableEq

namespace Radius

/-- Whether a value may be set as a radius. -/
def isValid {α : Type} [Scalar α] (value : α) : Bool :=
  Scalar.isFinite value && decide (0 ≤ value)

/-- The name of the radius in parameter files and messages. -/
def name : Radius → String
  | .cutoff => "r_cut"
  | .onset => "r_on"

end Radius

end Nonbonded
