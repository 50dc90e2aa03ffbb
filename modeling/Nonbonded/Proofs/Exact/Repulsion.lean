import Nonbonded.Proofs.Exact.LawForm

/-!
# The purely repulsive law

With its full attraction, a cutoff at its minimum and a shifted energy, the
Lennard-Jones law is a perfect square.  Of the sixth power `t` of the cutoff
over the distance, the energy is `(t - 1) ^ 2` times the depth, and the force
has the factor `t * (t - 1)`.  Below the cutoff `t` exceeds one and falls with
the distance, so energy and force are positive there, the energy falls, and
both run out at the cutoff.
-/

namespace Nonbonded

namespace LennardJones

variable {epsilon sigma : ℝ}

/-! ## The cutoff at the minimum -/

theorem repulsiveCutoff_real (sigma : ℝ) : repulsiveCutoff sigma = 2 ^ (1 / 6 : ℝ) * sigma := by
  change ((2 : ℕ) : ℝ) ^ (((1 : ℕ) : ℝ) / ((6 : ℕ) : ℝ)) * sigma = _
  push_cast
  rfl

theorem repulsiveCutoff_pos (size : 0 < sigma) : 0 < repulsiveCutoff sigma := by
  rw [repulsiveCutoff_real]
  exact mul_pos (Real.rpow_pos_of_pos two_pos _) size

theorem repulsiveCutoff_pow_six (sigma : ℝ) : repulsiveCutoff sigma ^ 6 = 2 * sigma ^ 6 := by
  have root : ((2 : ℝ) ^ (1 / 6 : ℝ)) ^ 6 = 2 := by
    rw [← Real.rpow_natCast, ← Real.rpow_mul zero_le_two]
    norm_num
  rw [repulsiveCutoff_real, mul_pow, root]

/-! ## The perfect square -/

/-- The energy at full attraction, with the square completed. -/
theorem energy_eq_square (epsilon sigma u : ℝ) :
    (⟨epsilon, sigma, 1⟩ : Params ℝ).coefficients.energy u =
      epsilon * (2 * sigma ^ 6 * u - 1) ^ 2 - epsilon := by
  simp only [Coefficients.energy, Params.coefficients, pow6_real, Scalar.numeral_real]
  push_cast
  ring

theorem steepness_eq (epsilon sigma u : ℝ) :
    (⟨epsilon, sigma, 1⟩ : Params ℝ).coefficients.steepness u =
      24 * epsilon * sigma ^ 6 * (2 * sigma ^ 6 * u - 1) := by
  simp only [Coefficients.steepness, Params.coefficients, pow6_real, Scalar.numeral_real]
  push_cast
  ring

/-- The sixth power of the cutoff over a distance. -/
noncomputable def closeness (cutoff r : ℝ) : ℝ :=
  (cutoff / r) ^ 6

/-- The interaction that is repulsive up to a cutoff. -/
noncomputable def repulsionAt (epsilon cutoff r : ℝ) : Interaction ℝ where
  forceOverDistance := 12 * epsilon * (closeness cutoff r * (closeness cutoff r - 1)) / r ^ 2
  energy := epsilon * (closeness cutoff r - 1) ^ 2

theorem closeness_repulsiveCutoff (sigma r : ℝ) :
    closeness (repulsiveCutoff sigma) r = 2 * sigma ^ 6 * r⁻¹ ^ 6 := by
  rw [closeness, div_eq_mul_inv, mul_pow, repulsiveCutoff_pow_six]

theorem closeness_self {cutoff : ℝ} (positive : 0 < cutoff) : closeness cutoff cutoff = 1 := by
  rw [closeness, div_self positive.ne', one_pow]

theorem strictAntiOn_closeness {cutoff : ℝ} (positive : 0 < cutoff) :
    StrictAntiOn (closeness cutoff) (Set.Ioi 0) := by
  intro r distance s _ farther
  have shorter : cutoff / s < cutoff / r := div_lt_div_of_pos_left positive distance farther
  exact pow_lt_pow_left₀ shorter (div_pos positive (distance.trans farther)).le (by decide)

theorem one_le_closeness {cutoff r : ℝ} (distance : 0 < r) (within : r ≤ cutoff) :
    1 ≤ closeness cutoff r :=
  one_le_pow₀ ((one_le_div distance).2 within)

theorem one_lt_closeness {cutoff r : ℝ} (distance : 0 < r) (close : r < cutoff) :
    1 < closeness cutoff r :=
  one_lt_pow₀ ((one_lt_div distance).2 close) (by decide)

/-- The interaction at the minimum: no force, and the energy is the depth below
zero. -/
theorem interactionAt_repulsiveCutoff (epsilon : ℝ) (size : 0 < sigma) :
    interactionAt (⟨epsilon, sigma, 1⟩ : Params ℝ).coefficients
      (repulsiveCutoff sigma * repulsiveCutoff sigma) = ⟨0, -epsilon⟩ := by
  have square : 2 * sigma ^ 6 * (repulsiveCutoff sigma)⁻¹ ^ 6 = 1 := by
    rw [← closeness_repulsiveCutoff, closeness_self (repulsiveCutoff_pos size)]
  rw [interactionAt_sq, displacedAt, sub_zero, energy_eq_square, steepness_eq, square]
  simp

/-- Lowered by its value at the minimum, the interaction is the repulsive
one. -/
theorem lower_interactionAt (epsilon : ℝ) (size : 0 < sigma) (r : ℝ) :
    (interactionAt (⟨epsilon, sigma, 1⟩ : Params ℝ).coefficients (r * r)).lower true
        (energyAt (⟨epsilon, sigma, 1⟩ : Params ℝ).coefficients
          (repulsiveCutoff sigma * repulsiveCutoff sigma)) =
      repulsionAt epsilon (repulsiveCutoff sigma) r := by
  have depth : energyAt (⟨epsilon, sigma, 1⟩ : Params ℝ).coefficients
      (repulsiveCutoff sigma * repulsiveCutoff sigma) = -epsilon :=
    congrArg Interaction.energy (interactionAt_repulsiveCutoff epsilon size)
  rw [depth, interactionAt_sq]
  simp only [Interaction.lower, if_true, displacedAt, sub_zero, energy_eq_square, steepness_eq,
    repulsionAt, closeness_repulsiveCutoff, Interaction.mk.injEq]
  constructor
  · ring
  · ring

/-! ## Pure repulsion -/

theorem repulsionAt_self (epsilon : ℝ) {cutoff : ℝ} (positive : 0 < cutoff) :
    repulsionAt epsilon cutoff cutoff = ⟨0, 0⟩ := by
  simp [repulsionAt, closeness_self positive]

theorem forceOverDistance_repulsionAt_pos (strength : 0 < epsilon) {cutoff r : ℝ}
    (distance : 0 < r) (close : r < cutoff) :
    0 < (repulsionAt epsilon cutoff r).forceOverDistance := by
  have above := one_lt_closeness distance close
  have factor : 0 < closeness cutoff r * (closeness cutoff r - 1) :=
    mul_pos (zero_lt_one.trans above) (sub_pos.2 above)
  exact div_pos (mul_pos (mul_pos (by norm_num) strength) factor) (pow_pos distance 2)

theorem energy_repulsionAt_pos (strength : 0 < epsilon) {cutoff r : ℝ} (distance : 0 < r)
    (close : r < cutoff) : 0 < (repulsionAt epsilon cutoff r).energy :=
  mul_pos strength (pow_pos (sub_pos.2 (one_lt_closeness distance close)) 2)

theorem strictAntiOn_energy_repulsionAt (strength : 0 < epsilon) (cutoff : ℝ) :
    StrictAntiOn (fun r => (repulsionAt epsilon cutoff r).energy) (Set.Ioc 0 cutoff) := by
  intro r inside s insideFarther farther
  have positive : 0 < cutoff := inside.1.trans_le inside.2
  have falls := strictAntiOn_closeness positive inside.1 insideFarther.1 farther
  have above := one_le_closeness insideFarther.1 insideFarther.2
  apply mul_lt_mul_of_pos_left _ strength
  exact pow_lt_pow_left₀ (sub_lt_sub_right falls 1) (sub_nonneg.2 above) (by decide)

end LennardJones

namespace PairLaw

open LennardJones (repulsiveCutoff repulsionAt)

/-- With full attraction, the cutoff at the minimum and a shifted energy, the
law is purely repulsive: at every distance below the cutoff energy and force
are positive, and the energy falls strictly with the distance.  The formulas
that give them vanish at the cutoff, where the law without a shift has no force
and its depth as energy. -/
theorem lennardJones_repulsive_to_cutoff {epsilon sigma : ℝ} (strength : 0 < epsilon)
    (size : 0 < sigma) (diameters charges : Option (ℝ × ℝ)) :
    let params : LennardJones.Params ℝ := ⟨epsilon, sigma, 1⟩
    let cutoff := repulsiveCutoff sigma
    let shifted : ℝ → Option (Interaction ℝ) := fun r =>
      (lennardJones : PairLaw ℝ).evaluate params ⟨r * r, cutoff * cutoff, diameters, charges⟩ true
    let formula : ℝ → Interaction ℝ := fun r =>
      (LennardJones.interactionAt params.coefficients (r * r)).lower true
        (LennardJones.energyAt params.coefficients (cutoff * cutoff))
    0 < cutoff ∧ cutoff ^ 6 = 2 * sigma ^ 6 ∧
      (∀ r, 0 < r → r < cutoff → shifted r = some (formula r) ∧
        0 < (formula r).energy ∧ 0 < (formula r).forceOverDistance) ∧
      StrictAntiOn (fun r => (formula r).energy) (Set.Ioc 0 cutoff) ∧
      formula cutoff = ⟨0, 0⟩ ∧
      ∀ larger, cutoff * cutoff < larger →
        (lennardJones : PairLaw ℝ).evaluate params ⟨cutoff * cutoff, larger, diameters, charges⟩
          false = some ⟨0, -epsilon⟩ := by
  intro params cutoff shifted formula
  have positive : 0 < cutoff := LennardJones.repulsiveCutoff_pos size
  let form := lennardJonesForm diameters charges params
  have on : ¬form.off := by
    rw [form.off_iff, off_lennardJones_iff]
    exact not_or.2 ⟨strength.ne', size.ne'⟩
  have isRepulsion : ∀ r, formula r = repulsionAt epsilon cutoff r :=
    LennardJones.lower_interactionAt epsilon size
  have inside : ∀ r, 0 < r → r < cutoff → shifted r = some (formula r) := fun r distance close =>
    form.evaluate_of_on on (mul_self_lt_mul_self distance.le close)
  refine ⟨positive, LennardJones.repulsiveCutoff_pow_six sigma, ?_, ?_, ?_, ?_⟩
  · intro r distance close
    refine ⟨inside r distance close, ?_⟩
    rw [isRepulsion]
    exact ⟨LennardJones.energy_repulsionAt_pos strength distance close,
      LennardJones.forceOverDistance_repulsionAt_pos strength distance close⟩
  · simp only [isRepulsion]
    exact LennardJones.strictAntiOn_energy_repulsionAt strength cutoff
  · rw [isRepulsion]
    exact LennardJones.repulsionAt_self epsilon positive
  · intro larger beyond
    rw [form.evaluate_of_on on beyond, Interaction.lower_false]
    exact congrArg some (LennardJones.interactionAt_repulsiveCutoff epsilon size)

/-- Particles of diameter two at the distances one and two, both below the
cutoff. -/
theorem lennardJones_repulsive_to_cutoff_wide :
    let params : LennardJones.Params ℝ := ⟨3 / 2, 2, 1⟩
    let rcutsq := repulsiveCutoff (2 : ℝ) * repulsiveCutoff 2
    (0 : ℝ) < 3 / 2 ∧ (0 : ℝ) < 2 ∧ 2 < repulsiveCutoff (2 : ℝ) ∧
      (∃ near far, (lennardJones : PairLaw ℝ).evaluate params ⟨1 * 1, rcutsq, none, none⟩ true =
          some near ∧
        (lennardJones : PairLaw ℝ).evaluate params ⟨2 * 2, rcutsq, none, none⟩ true = some far ∧
        0 < far.energy ∧ far.energy < near.energy ∧ 0 < far.forceOverDistance) ∧
      (LennardJones.interactionAt params.coefficients rcutsq).lower true
          (LennardJones.energyAt params.coefficients rcutsq) = ⟨0, 0⟩ ∧
      (lennardJones : PairLaw ℝ).evaluate params ⟨rcutsq, rcutsq + 1, none, none⟩ false =
        some ⟨0, -(3 / 2)⟩ := by
  intro params rcutsq
  have strength : (0 : ℝ) < 3 / 2 := by norm_num
  rcases lennardJones_repulsive_to_cutoff strength two_pos none none with
    ⟨positive, sixth, repels, falls, vanishes, atMinimum⟩
  have close : 2 < repulsiveCutoff (2 : ℝ) := by
    apply lt_of_pow_lt_pow_left₀ 6 positive.le
    rw [sixth]
    norm_num
  have closer : 1 < repulsiveCutoff (2 : ℝ) := one_lt_two.trans close
  rcases repels 1 one_pos closer with ⟨givenNear, -, -⟩
  rcases repels 2 two_pos close with ⟨givenFar, energy, force⟩
  have lower := falls ⟨one_pos, closer.le⟩ ⟨two_pos, close.le⟩ one_lt_two
  exact ⟨strength, two_pos, close, ⟨_, _, givenNear, givenFar, energy, lower, force⟩, vanishes,
    atMinimum _ (lt_add_one _)⟩

end PairLaw

end Nonbonded
