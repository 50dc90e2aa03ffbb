import Nonbonded.Proofs.Exact.LawForm

/-!
# The displaced law as a change of variable

The Lennard-Jones law between particles of different size is the plain law at a
displaced radius.  The plain one works on squared distances, the other on
reciprocal square roots; in exact arithmetic both are the same function, of the
distance and of the distance less the displacement.

So a pair and its cutoff may be displaced together: the energy is the same,
shifted or not, and so is the force itself, which is what the law gives times
the distance.  The displacement may have either sign, and without one the two
laws are identical.
-/

namespace Nonbonded

/-- Two interactions, one at distance `x` and the other at distance `y`, have
the same energy and the same force. -/
structure Interaction.SameAt (x y : ℝ) (pair other : Interaction ℝ) : Prop where
  energy : pair.energy = other.energy
  force : pair.forceOverDistance * x = other.forceOverDistance * y

namespace Interaction.SameAt

variable {x y : ℝ} {pair other : Interaction ℝ}

/-- Both may be lowered by one level. -/
theorem lower (same : SameAt x y pair other) (shifted : Bool) (level : ℝ) :
    SameAt x y (pair.lower shifted level) (other.lower shifted level) := by
  cases shifted with
  | false => exact same
  | true => exact ⟨congrArg (· - level) same.energy, same.force⟩

/-- At one distance interactions of the same energy and force are equal. -/
theorem eq (same : SameAt x x pair other) (nonzero : x ≠ 0) : pair = other :=
  Interaction.ext (mul_right_cancel₀ nonzero same.force) same.energy

theorem eq_of_rel {left right : Option (Interaction ℝ)} (same : Option.Rel (SameAt x x) left right)
    (nonzero : x ≠ 0) : left = right := by
  cases same with
  | none => rfl
  | some same => rw [same.eq nonzero]

end Interaction.SameAt

/-- The displaced law at a distance is the plain law at the displaced
distance. -/
theorem LennardJones.sameAt_displacedAt (c : Coefficients ℝ) {delta x : ℝ} (nonzero : x ≠ 0)
    (apart : x ≠ delta) :
    Interaction.SameAt x (x - delta) (displacedAt c delta x) (displacedAt c 0 (x - delta)) where
  energy := by rw [displacedAt, displacedAt, sub_zero]
  force := by
    have apart : x - delta ≠ 0 := sub_ne_zero.2 apart
    rw [displacedAt, displacedAt, sub_zero]
    field_simp

theorem ShiftedLennardJones.displacement_real (first second : ℝ) :
    displacement (some (first, second)) = (first + second) / 2 - 1 := by
  rw [displacement, Scalar.half_real, Scalar.one_real]
  ring

theorem ShiftedLennardJones.cutoffEnergy_sq (c : LennardJones.Coefficients ℝ) {delta x : ℝ}
    (positive : 0 < x) :
    cutoffEnergy c delta (x * x) = LennardJones.energyAt c ((x - delta) * (x - delta)) := by
  have plain : LennardJones.energyAt c ((x - delta) * (x - delta)) =
      (LennardJones.interactionAt c ((x - delta) * (x - delta))).energy := rfl
  rw [cutoffEnergy_eq_energy, plain, interactionAt_sq c delta positive,
    LennardJones.interactionAt_sq, LennardJones.displacedAt, LennardJones.displacedAt, sub_zero]

namespace PairLaw

variable (params : LennardJones.Params ℝ)
  (diameters charges plainDiameters plainCharges : Option (ℝ × ℝ)) (shifted : Bool)
  {r cutoff : ℝ}

/-- Beyond the displacement, a pair and its cutoff may be displaced
together. -/
theorem rel_sameAt_displaced (positive : 0 < r) (cutoffPositive : 0 < cutoff)
    (apart : ShiftedLennardJones.displacement diameters < r)
    (cutoffApart : ShiftedLennardJones.displacement diameters < cutoff) :
    let delta := ShiftedLennardJones.displacement diameters
    Option.Rel (Interaction.SameAt r (r - delta))
      ((shiftedLennardJones : PairLaw ℝ).evaluate params
        ⟨r * r, cutoff * cutoff, diameters, charges⟩ shifted)
      ((lennardJones : PairLaw ℝ).evaluate params
        ⟨(r - delta) * (r - delta), (cutoff - delta) * (cutoff - delta), plainDiameters,
          plainCharges⟩
        shifted) := by
  intro delta
  let displacedForm := shiftedLennardJonesForm diameters charges params
  let plainForm := lennardJonesForm plainDiameters plainCharges params
  by_cases off : params.coefficients.repulsive = 0
  · rw [displacedForm.evaluate_of_off off, plainForm.evaluate_of_off off]
    exact .none
  -- Displacing two distances beyond the displacement keeps their order, and so
  -- does squaring.
  by_cases beyond : cutoff ≤ r
  · have displacedBeyond : cutoff - delta ≤ r - delta := sub_le_sub_right beyond delta
    rw [displacedForm.evaluate_of_le (mul_self_le_mul_self cutoffPositive.le beyond),
      plainForm.evaluate_of_le (mul_self_le_mul_self (sub_pos.2 cutoffApart).le displacedBeyond)]
    exact .none
  · have close : r < cutoff := not_le.1 beyond
    have displacedClose : r - delta < cutoff - delta := sub_lt_sub_right close delta
    rw [displacedForm.evaluate_of_on off (mul_self_lt_mul_self positive.le close),
      plainForm.evaluate_of_on off (mul_self_lt_mul_self (sub_pos.2 apart).le displacedClose)]
    simp only [displacedForm, plainForm, shiftedLennardJonesForm, lennardJonesForm,
      ShiftedLennardJones.interactionAt_sq _ _ positive, LennardJones.interactionAt_sq,
      ShiftedLennardJones.cutoffEnergy_sq _ cutoffPositive]
    exact .some ((LennardJones.sameAt_displacedAt _ positive.ne' apart.ne').lower shifted _)

/-- At distances and cutoffs beyond the displacement, the displaced law gives a
result just when the plain law does at the displaced distance under the
displaced cutoff, with the same energy and the same force, shifted or not.  For
diameters whose mean is one, both laws give the same. -/
theorem shiftedLennardJones_sameAt_displaced (first second : ℝ) (positive : 0 < r)
    (cutoffPositive : 0 < cutoff) (apart : (first + second) / 2 - 1 < r)
    (cutoffApart : (first + second) / 2 - 1 < cutoff) :
    let delta := (first + second) / 2 - 1
    Option.Rel (Interaction.SameAt r (r - delta))
      ((shiftedLennardJones : PairLaw ℝ).evaluate params
        ⟨r * r, cutoff * cutoff, some (first, second), charges⟩ shifted)
      ((lennardJones : PairLaw ℝ).evaluate params
        ⟨(r - delta) * (r - delta), (cutoff - delta) * (cutoff - delta), plainDiameters,
          plainCharges⟩
        shifted) ∧
    (first + second = 2 →
      (shiftedLennardJones : PairLaw ℝ).evaluate params
          ⟨r * r, cutoff * cutoff, some (first, second), charges⟩ shifted =
        (lennardJones : PairLaw ℝ).evaluate params
          ⟨r * r, cutoff * cutoff, plainDiameters, plainCharges⟩ shifted) := by
  intro delta
  have same := rel_sameAt_displaced params (some (first, second)) charges plainDiameters
    plainCharges shifted positive cutoffPositive
  rw [ShiftedLennardJones.displacement_real] at same
  constructor
  · exact same apart cutoffApart
  · intro unit
    have undisplaced : (first + second) / 2 - 1 = 0 := by
      rw [unit]
      norm_num
    simp only [undisplaced, sub_zero] at same
    exact Interaction.SameAt.eq_of_rel (same positive cutoffPositive) positive.ne'

/-- Particles smaller than the unit, at a distance of two with the cutoff at
five halves and a shifted energy: the plain law sees them half a unit further
apart.  Particles of different sizes whose mean is the unit are as the plain
law sees them. -/
theorem shiftedLennardJones_sameAt_displaced_small :
    (0 : ℝ) < 2 ∧ (0 : ℝ) < 5 / 2 ∧
      (((1 / 2 : ℝ) + 1 / 2) / 2 - 1 < 2 ∧ ((1 / 2 : ℝ) + 1 / 2) / 2 - 1 < 5 / 2 ∧
        Option.Rel (Interaction.SameAt 2 (5 / 2))
          ((shiftedLennardJones : PairLaw ℝ).evaluate ⟨1, 1, 1⟩
            ⟨2 * 2, 5 / 2 * (5 / 2), some (1 / 2, 1 / 2), none⟩ true)
          ((lennardJones : PairLaw ℝ).evaluate ⟨1, 1, 1⟩ ⟨5 / 2 * (5 / 2), 3 * 3, none, none⟩
            true)) ∧
      ((3 / 2 : ℝ) + 1 / 2) / 2 - 1 < 2 ∧ ((3 / 2 : ℝ) + 1 / 2) / 2 - 1 < 5 / 2 ∧
        (shiftedLennardJones : PairLaw ℝ).evaluate ⟨1, 1, 1⟩
            ⟨2 * 2, 5 / 2 * (5 / 2), some (3 / 2, 1 / 2), none⟩ true =
          (lennardJones : PairLaw ℝ).evaluate ⟨1, 1, 1⟩ ⟨2 * 2, 5 / 2 * (5 / 2), none, none⟩
            true := by
  have cutoffPositive : (0 : ℝ) < 5 / 2 := by norm_num
  have apart : ((1 / 2 : ℝ) + 1 / 2) / 2 - 1 < 2 := by norm_num
  have cutoffApart : ((1 / 2 : ℝ) + 1 / 2) / 2 - 1 < 5 / 2 := by norm_num
  have unitApart : ((3 / 2 : ℝ) + 1 / 2) / 2 - 1 < 2 := by norm_num
  have unitCutoffApart : ((3 / 2 : ℝ) + 1 / 2) / 2 - 1 < 5 / 2 := by norm_num
  rcases shiftedLennardJones_sameAt_displaced ⟨1, 1, 1⟩ none none none true (1 / 2) (1 / 2) two_pos
    cutoffPositive apart cutoffApart with ⟨same, -⟩
  rcases shiftedLennardJones_sameAt_displaced ⟨1, 1, 1⟩ none none none true (3 / 2) (1 / 2) two_pos
    cutoffPositive unitApart unitCutoffApart with ⟨-, equal⟩
  have distance : (2 : ℝ) - ((1 / 2 + 1 / 2) / 2 - 1) = 5 / 2 := by norm_num
  have cutoff : (5 / 2 : ℝ) - ((1 / 2 + 1 / 2) / 2 - 1) = 3 := by norm_num
  rw [distance, cutoff] at same
  exact ⟨two_pos, cutoffPositive, ⟨apart, cutoffApart, same⟩, unitApart, unitCutoffApart,
    equal (by norm_num)⟩

end PairLaw

end Nonbonded
