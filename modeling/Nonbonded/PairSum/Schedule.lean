import Nonbonded.PairSum

/-!
# Sums shared between workers

The sum over all particles may be shared between workers.  Each worker adds the
interactions of its particles into a buffer of its own, which has an entry for
every particle of the system because a pair that is listed once also acts on
the partner.  The buffers are merged two at a time, and the last one into a
buffer of zeros.

A `Schedule` says who adds what and in which order buffers are merged.  Nothing
here asks that every particle is taken up once.
-/

namespace Nonbonded

/-- Which worker adds which particles, and how the buffers are merged. -/
inductive Schedule where
  | worker (particles : List Nat)
  | join (left right : Schedule)

/-- The particles of all workers, from left to right. -/
def Schedule.particles : Schedule → List Nat
  | .worker particles => particles
  | .join left right => left.particles ++ right.particles

namespace PairSum

variable {α : Type} [Scalar α] {law : PairLaw α}

/-- The merged buffers of the workers of a schedule. -/
def gather (sum : PairSum law) (neighbors : Nat → Except Fault (Array Nat)) :
    Schedule → Except Fault (Accumulators α)
  | .worker particles => sum.accumulateAll neighbors particles (.zeroed sum.system.size)
  | .join left right => do
      let first ← sum.gather neighbors left
      let second ← sum.gather neighbors right
      first.merge second

/-- The summed contributions, shared out by a schedule. -/
def sharedTotal (sum : PairSum law) (neighbors : Nat → Except Fault (Array Nat))
    (schedule : Schedule) : Except Fault (Accumulators α) := do
  (Accumulators.zeroed sum.system.size).merge (← sum.gather neighbors schedule)

end PairSum

end Nonbonded
