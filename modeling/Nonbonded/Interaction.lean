import Nonbonded.Scalar

/-!
# Interactions of two particles

What a potential law gives for one pair: the force magnitude over the
separation, so that the force on the first particle is that number times the
displacement from the second, and the energy.
-/

namespace Nonbonded

/-- Force over distance and energy of one pair. -/
@[ext]
structure Interaction (α : Type) where
  forceOverDistance : α
  energy : α

namespace Interaction

variable {α : Type} [Scalar α]

/-- Lower the energy by its value at the cutoff, when asked to. -/
def lower (raw : Interaction α) (shifted : Bool) (atCutoff : α) : Interaction α :=
  if shifted then { raw with energy := raw.energy - atCutoff } else raw

@[simp]
theorem lower_false (raw : Interaction α) (atCutoff : α) : raw.lower false atCutoff = raw :=
  rfl

@[simp]
theorem forceOverDistance_lower (raw : Interaction α) (shifted : Bool) (atCutoff : α) :
    (raw.lower shifted atCutoff).forceOverDistance = raw.forceOverDistance := by
  cases shifted <;> rfl

end Interaction

end Nonbonded
