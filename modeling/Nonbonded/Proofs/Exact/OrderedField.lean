import Mathlib.Algebra.Order.Field.Basic
import Nonbonded.Proofs.Exact.Scalar

/-!
# Exact arithmetic in an ordered field

The reading of scalars as elements of a linearly ordered field, of which the
real numbers are one.  Operations, numerals and comparisons are those of the
field.  A field need not have roots, exponentials or powers, so these functions
are given beside it, and nothing is asked of them.
-/

namespace Nonbonded.Scalar

/-- Functions in the place of the square root, the exponential and powers. -/
class Elementary (K : Type) where
  sqrt : K → K
  exp : K → K
  pow : K → K → K

variable {K : Type} [Field K] [LinearOrder K] [Elementary K]

/-- The elements of an ordered field. -/
instance (priority := 10) ofField : Scalar K where
  ofNat n := n
  decidableLT := inferInstance
  decidableLE := inferInstance
  sqrt := Elementary.sqrt
  exp := Elementary.exp
  pow := Elementary.pow
  isFinite _ := true

noncomputable instance : Elementary ℝ :=
  ⟨Real.sqrt, Real.exp, Real.rpow⟩

/-- The real numbers with their own functions. -/
example : Scalar.real = ofField :=
  rfl

end Nonbonded.Scalar
