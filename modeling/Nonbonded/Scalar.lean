/-!
# Scalars

Every number of this library belongs to a type with a `Scalar` instance, so
that one definition serves machine numbers and exact ones.  The class asks for
operations and decidable comparisons and for no laws at all: rounding,
infinities and values that compare with nothing are allowed, and each
definition fixes the order of its operations.

Exact arithmetic is the reading in which the operations come from an ordered
field; theorems about that reading name the field.
-/

namespace Nonbonded

/-- Arithmetic, comparisons and the elementary functions the potential laws
use. -/
class Scalar (α : Type) extends Add α, Sub α, Mul α, Div α, Neg α, LT α, LE α, BEq α where
  /-- The image of a natural number. -/
  ofNat : Nat → α
  decidableLT : DecidableLT α
  decidableLE : DecidableLE α
  sqrt : α → α
  exp : α → α
  pow : α → α → α
  isFinite : α → Bool

attribute [reducible, instance] Scalar.decidableLT Scalar.decidableLE

/- A type with arithmetic of its own is read with that first. -/
attribute [instance (50)] Scalar.toAdd Scalar.toSub Scalar.toMul Scalar.toDiv Scalar.toNeg
  Scalar.toLT Scalar.toLE Scalar.toBEq

/-- A numeral stands for the image of a natural number. -/
instance (priority := 50) Scalar.numeral {α : Type} [Scalar α] (n : Nat) : OfNat α n :=
  ⟨Scalar.ofNat n⟩

/-- Binary64 numbers with the arithmetic of the machine. -/
instance Scalar.float : Scalar Float where
  ofNat := Float.ofNat
  decidableLT := inferInstance
  decidableLE := inferInstance
  sqrt := Float.sqrt
  exp := Float.exp
  pow := Float.pow
  isFinite := Float.isFinite

namespace Scalar

variable {α : Type} [Scalar α]

/-- One half. -/
def half : α :=
  1 / 2

/-- The larger of two values; a right operand that compares with nothing is
passed over. -/
def max (left right : α) : α :=
  if left < right then right else left

/-- The sum of a list from left to right, starting at the negated zero, which
is neutral for every value of a signed-zero arithmetic. -/
def sum (values : List α) : α :=
  values.foldl (· + ·) (-0)

end Scalar

end Nonbonded
