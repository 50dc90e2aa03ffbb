import Nonbonded.ParticleSystem

/-!
# Neighbor sources

A source of candidate partners for every particle.  What is a candidate is the
source's own affair: lists may repeat an entry, name a particle itself, or hold
indices of another system.  A source says whether an interacting pair is listed
once or from both sides.
-/

namespace Nonbonded

/-- Whether an interacting pair is listed once or from both sides. -/
inductive StorageMode where
  | half
  | full
  deriving DecidableEq

/-- A type of states that list candidate partners. -/
class NeighborSource (ν : Type) (α : outParam Type) [Scalar α] where
  /-- The state brought up to date with a system at a timestep. -/
  refresh : Nat → ParticleSystem α → ν → ν
  mode : ν → StorageMode
  /-- The number of particles that have a list. -/
  size : ν → Nat
  /-- The candidate partners of a particle, in order. -/
  neighbors : ν → Nat → Except Fault (Array Nat)

end Nonbonded
