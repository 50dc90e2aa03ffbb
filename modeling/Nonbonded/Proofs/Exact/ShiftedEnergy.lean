import Nonbonded.Proofs.Exact.Gradient
import Nonbonded.Proofs.Exact.Lowering

/-!
# Shifted energies at the cutoff

Asking a law for a shifted energy changes neither whether it gives a result nor
the force.  The energy loses what the law assigns, not shifted, at the cutoff,
which is the value found there under any larger cutoff.  The laws compute that
value each in its own way, not always as they compute an energy at a
separation; in exact arithmetic the two agree.

The energies of a law are continuous at every separation, except where a
displaced law is singular.  So a shifted energy goes to zero at the cutoff,
from below.
-/

namespace Nonbonded.PairLaw

open Filter Topology

variable {law : PairLaw ℝ} {params : law.Params} {diameters charges : Option (ℝ × ℝ)}

theorem energyAt_of_off (off : law.Off params diameters charges) (rsq : ℝ) :
    law.energyAt params diameters charges rsq = 0 := by
  rw [energyAt, off]
  rfl

/-- A law of this library that gives a result for two particles gives one at
every separation below every cutoff, with the energy assigned to that
separation. -/
theorem Bundled.exists_energyAt (bundled : law.Bundled) {rsq rcutsq : ℝ} {shifted : Bool}
    {pair : Interaction ℝ}
    (given : law.evaluate params ⟨rsq, rcutsq, diameters, charges⟩ shifted = some pair)
    {other larger : ℝ} (below : other < larger) :
    ∃ result, law.evaluate params ⟨other, larger, diameters, charges⟩ false = some result ∧
      result.energy = law.energyAt params diameters charges other := by
  rcases bundled.exists_form_level params diameters charges with ⟨form, -⟩
  rcases form.on_of_eq_some given with ⟨on, -⟩
  exact ⟨_, form.evaluate_of_on on below, (form.energyAt_eq on other).symm⟩

theorem Bundled.continuousAt_energyAt (bundled : law.Bundled) (params : law.Params)
    (diameters charges : Option (ℝ × ℝ)) {rsq : ℝ} (positive : 0 < rsq)
    (apart : law = .shiftedLennardJones →
      Real.sqrt rsq ≠ ShiftedLennardJones.displacement diameters) :
    ContinuousAt (law.energyAt params diameters charges) rsq := by
  by_cases off : law.Off params diameters charges
  · rw [funext (energyAt_of_off off)]
    exact continuousAt_const
  rcases bundled.exists_form params diameters charges (Real.sqrt_pos.2 positive) apart with
    ⟨form, slope⟩
  rw [← form.off_iff] at off
  have byDistance : ContinuousAt (fun x => (form.interaction (x * x)).energy) (Real.sqrt rsq) :=
    HasDerivAt.continuousAt slope
  have bySquare := byDistance.comp Real.continuous_sqrt.continuousAt
  apply bySquare.congr
  filter_upwards [eventually_gt_nhds positive] with y positive
  rw [form.energyAt_eq off, Function.comp_apply, Real.mul_self_sqrt positive.le]

/-- The shifted energies of a law of this library vanish at the cutoff. -/
theorem Bundled.tendsto_shifted (bundled : law.Bundled) (params : law.Params)
    (diameters charges : Option (ℝ × ℝ)) {rcutsq : ℝ} (positive : 0 < rcutsq)
    (apart : law = .shiftedLennardJones →
      Real.sqrt rcutsq ≠ ShiftedLennardJones.displacement diameters) :
    Tendsto (fun rsq =>
        (law.evaluate params ⟨rsq, rcutsq, diameters, charges⟩ true).elim 0 (·.energy))
      (𝓝[<] rcutsq) (𝓝 0) := by
  have continuous := bundled.continuousAt_energyAt params diameters charges positive apart
  have difference : Tendsto (fun rsq => law.energyAt params diameters charges rsq -
      law.energyAt params diameters charges rcutsq) (𝓝[<] rcutsq) (𝓝 0) := by
    rw [← sub_self (law.energyAt params diameters charges rcutsq)]
    exact (continuous.tendsto.mono_left nhdsWithin_le_nhds).sub_const _
  rcases bundled.exists_form_level params diameters charges with ⟨form, level⟩
  apply difference.congr'
  filter_upwards [self_mem_nhdsWithin] with rsq below
  by_cases off : form.off
  · rw [form.evaluate_of_off off, energyAt_of_off (form.off_iff.1 off),
      energyAt_of_off (form.off_iff.1 off)]
    exact sub_zero 0
  · rw [form.evaluate_of_on off below, form.energyAt_eq off, form.energyAt_eq off, level]
    rfl

/-- For every law of this library, all parameters and both particles'
properties, at every separation below the cutoff: the law gives a result when
asked for a shifted energy just when it does otherwise, the force is the same,
and the shifted energy is the plain one less the plain energy at the cutoff, as
the law gives it under every larger cutoff.  Towards the cutoff the shifted
energy goes to zero; of a displaced law the cutoff at which it is singular is
left out there. -/
theorem Bundled.shifts_to_zero_at_cutoff (bundled : law.Bundled) (params : law.Params)
    (diameters charges : Option (ℝ × ℝ)) {rsq rcutsq : ℝ} (positive : 0 < rsq)
    (close : rsq < rcutsq) :
    (law.evaluate params ⟨rsq, rcutsq, diameters, charges⟩ true = none ↔
      law.evaluate params ⟨rsq, rcutsq, diameters, charges⟩ false = none) ∧
    (∀ shifted plain,
      law.evaluate params ⟨rsq, rcutsq, diameters, charges⟩ true = some shifted →
      law.evaluate params ⟨rsq, rcutsq, diameters, charges⟩ false = some plain →
        shifted.forceOverDistance = plain.forceOverDistance ∧
        ∀ larger, rcutsq < larger → ∃ atCutoff,
          law.evaluate params ⟨rcutsq, larger, diameters, charges⟩ false = some atCutoff ∧
          shifted.energy = plain.energy - atCutoff.energy) ∧
    ((law = .shiftedLennardJones →
        Real.sqrt rcutsq ≠ ShiftedLennardJones.displacement diameters) →
      Tendsto (fun x =>
          (law.evaluate params ⟨x, rcutsq, diameters, charges⟩ true).elim 0 (·.energy))
        (𝓝[<] rcutsq) (𝓝 0)) := by
  have lowered := bundled.evaluate_shifted params rsq rcutsq diameters charges
  constructor
  · rw [lowered]
    exact Option.map_eq_none_iff
  constructor
  · intro shifted plain givenShifted given
    rw [lowered, given] at givenShifted
    cases givenShifted
    constructor
    · exact Interaction.forceOverDistance_lower plain true _
    · intro larger beyond
      rcases bundled.exists_energyAt given beyond with ⟨atCutoff, givenThere, energy⟩
      rw [← energy]
      exact ⟨atCutoff, givenThere, rfl⟩
  · exact bundled.tendsto_shifted params diameters charges (positive.trans close)

/-- Particles of unequal size at a distance of two, with the cutoff at five
halves. -/
theorem shifts_to_zero_at_cutoff_unequal :
    let evaluate := fun (rsq rcutsq : ℝ) (shifted : Bool) =>
      (shiftedLennardJones : PairLaw ℝ).evaluate (⟨1, 1, 1⟩ : LennardJones.Params ℝ)
        ⟨rsq, rcutsq, some (2, 1), none⟩ shifted
    (shiftedLennardJones : PairLaw ℝ).Bundled ∧ (0 : ℝ) < 4 ∧ (4 : ℝ) < 25 / 4 ∧
      Real.sqrt (25 / 4) ≠ ShiftedLennardJones.displacement (some (2, 1)) ∧
      (∃ shifted plain atCutoff, evaluate 4 (25 / 4) true = some shifted ∧
        evaluate 4 (25 / 4) false = some plain ∧ evaluate (25 / 4) 9 false = some atCutoff ∧
        shifted.forceOverDistance = plain.forceOverDistance ∧
        shifted.energy = plain.energy - atCutoff.energy) ∧
      Tendsto (fun x => (evaluate x (25 / 4) true).elim 0 (·.energy)) (𝓝[<] (25 / 4)) (𝓝 0) := by
  intro evaluate
  have close : (4 : ℝ) < 25 / 4 := by norm_num
  have apart : Real.sqrt (25 / 4) ≠ ShiftedLennardJones.displacement (some (2, 1)) := by
    have root : Real.sqrt (25 / 4) = 5 / 2 := by
      rw [Real.sqrt_eq_iff_mul_self_eq (by norm_num) (by norm_num)]
      norm_num
    rw [root, ShiftedLennardJones.displacement, Scalar.half_real, Scalar.one_real]
    norm_num
  let form := shiftedLennardJonesForm (some (2, 1)) none ⟨1, 1, 1⟩
  have on : ¬form.off := by
    rw [form.off_iff, off_shiftedLennardJones_iff]
    norm_num
  rcases Bundled.shiftedLennardJones.shifts_to_zero_at_cutoff (⟨1, 1, 1⟩ : LennardJones.Params ℝ)
    (some (2, 1)) none four_pos close with ⟨-, same, vanishes⟩
  have given : ∀ shifted, ∃ pair, evaluate 4 (25 / 4) shifted = some pair :=
    fun _ => ⟨_, form.evaluate_of_on on close⟩
  rcases given true with ⟨shifted, givenShifted⟩
  rcases given false with ⟨plain, givenPlain⟩
  rcases same shifted plain givenShifted givenPlain with ⟨force, atLarger⟩
  rcases atLarger 9 (by norm_num) with ⟨atCutoff, givenThere, energy⟩
  exact ⟨.shiftedLennardJones, four_pos, close, apart,
    ⟨shifted, plain, atCutoff, givenShifted, givenPlain, givenThere, force, energy⟩,
    vanishes fun _ => apart⟩

end Nonbonded.PairLaw
