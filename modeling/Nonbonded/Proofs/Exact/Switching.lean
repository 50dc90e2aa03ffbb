import Mathlib.Analysis.Calculus.Deriv.MeanValue
import Nonbonded.Proofs.Exact.Gradient

/-!
# The switching factor

Smoothing multiplies the energy of an interaction by a polynomial in the
squared separation.  From onset to cutoff that factor falls strictly from one
to zero, so an energy never grows by smoothing.  The force uses a second
polynomial, written down on its own, which is twice the derivative of the first
and vanishes at both ends.  So an interaction enters the window as it is and
leaves it with no force and no energy.

All of this holds for any window, as long as the onset lies below the cutoff.
-/

namespace Nonbonded.ShiftMode

variable {rcutsq ronsq : ℝ}

theorem switching_cutoff (rcutsq ronsq inverse : ℝ) :
    switching rcutsq rcutsq ronsq inverse = 0 := by
  rw [switching_real, sub_self]
  ring

theorem switchingSlope_cutoff (rcutsq ronsq inverse : ℝ) :
    switchingSlope rcutsq rcutsq ronsq inverse = 0 := by
  rw [switchingSlope_real, sub_self, mul_zero, zero_mul]

/-- Strictly between onset and cutoff the factor falls. -/
theorem switchingSlope_neg {rsq : ℝ} (after : ronsq < rsq) (before : rsq < rcutsq) :
    switchingSlope rsq rcutsq ronsq (windowInverse rcutsq ronsq) < 0 := by
  have window : 0 < windowInverse rcutsq ronsq :=
    inv_pos.2 (pow_pos (sub_pos.2 (after.trans before)) 3)
  rw [switchingSlope_real]
  apply mul_neg_of_neg_of_pos _ window
  apply mul_neg_of_pos_of_neg _ (sub_neg.2 before)
  exact mul_pos (by norm_num) (sub_pos.2 after)

theorem strictAntiOn_switching (rcutsq ronsq : ℝ) :
    StrictAntiOn (fun rsq => switching rsq rcutsq ronsq (windowInverse rcutsq ronsq))
      (Set.Icc ronsq rcutsq) := by
  have slopes := hasDerivAt_switching_rsq rcutsq ronsq (windowInverse rcutsq ronsq)
  apply strictAntiOn_of_hasDerivWithinAt_neg (convex_Icc ronsq rcutsq)
  · exact fun rsq _ => (slopes rsq).continuousAt.continuousWithinAt
  · exact fun rsq _ => (slopes rsq).hasDerivWithinAt
  · intro rsq inside
    rw [interior_Icc] at inside
    exact div_neg_of_neg_of_pos (switchingSlope_neg inside.1 inside.2) two_pos

/-- A factor that switches an energy off between onset and cutoff, and the
slope that the force takes it to have over the separation. -/
structure SwitchesOff (factor slope : ℝ → ℝ) (rcutsq ronsq : ℝ) : Prop where
  factor_onset : factor ronsq = 1
  factor_cutoff : factor rcutsq = 0
  strictAntiOn : StrictAntiOn factor (Set.Icc ronsq rcutsq)
  factor_mem : ∀ rsq ∈ Set.Icc ronsq rcutsq, 0 ≤ factor rsq ∧ factor rsq ≤ 1
  /-- The slope is twice the derivative with respect to the squared
  separation. -/
  hasDerivAt : ∀ rsq, HasDerivAt factor (slope rsq / 2) rsq
  slope_onset : slope ronsq = 0
  slope_cutoff : slope rcutsq = 0

theorem switchesOff_switching (window : ronsq < rcutsq) :
    SwitchesOff (fun rsq => switching rsq rcutsq ronsq (windowInverse rcutsq ronsq))
      (fun rsq => switchingSlope rsq rcutsq ronsq (windowInverse rcutsq ronsq)) rcutsq ronsq where
  factor_onset := switching_onset window.ne
  factor_cutoff := switching_cutoff rcutsq ronsq _
  strictAntiOn := strictAntiOn_switching rcutsq ronsq
  factor_mem rsq member := by
    have falls := (strictAntiOn_switching rcutsq ronsq).antitoneOn
    constructor
    · rw [← switching_cutoff rcutsq ronsq (windowInverse rcutsq ronsq)]
      exact falls member (Set.right_mem_Icc.2 window.le) member.2
    · rw [← switching_onset window.ne]
      exact falls (Set.left_mem_Icc.2 window.le) member member.1
  hasDerivAt := hasDerivAt_switching_rsq rcutsq ronsq _
  slope_onset := switchingSlope_onset rcutsq ronsq _
  slope_cutoff := switchingSlope_cutoff rcutsq ronsq _

/-- At the onset an interaction is left as it is. -/
theorem smooth_onset (window : ronsq < rcutsq) (raw : Interaction ℝ) :
    smooth raw ronsq rcutsq ronsq = raw := by
  rw [smooth_real, switching_onset window.ne, switchingSlope_onset, one_mul, one_mul, zero_mul,
    sub_zero]

/-- At the cutoff neither force nor energy is left. -/
theorem smooth_cutoff (raw : Interaction ℝ) : smooth raw rcutsq rcutsq ronsq = ⟨0, 0⟩ := by
  rw [smooth_real, switching_cutoff, switchingSlope_cutoff, zero_mul, zero_mul, sub_zero]

/-- No energy grows by smoothing. -/
theorem abs_energy_smooth_le (window : ronsq < rcutsq) {rsq : ℝ}
    (member : rsq ∈ Set.Icc ronsq rcutsq) (raw : Interaction ℝ) :
    |(smooth raw rsq rcutsq ronsq).energy| ≤ |raw.energy| := by
  rcases (switchesOff_switching window).factor_mem rsq member with ⟨nonneg, atMost⟩
  rw [smooth_real, abs_mul, abs_of_nonneg nonneg]
  exact mul_le_of_le_one_left (abs_nonneg raw.energy) atMost

/-- Smoothing multiplies the energy by a factor that switches it off between
onset and cutoff, and takes the slope of that factor off the force.  So it
leaves an interaction at the onset as it is, leaves neither force nor energy at
the cutoff, and makes no energy between them larger. -/
theorem smooth_switchesOff (window : ronsq < rcutsq) :
    ∃ factor slope, SwitchesOff factor slope rcutsq ronsq ∧ ∀ raw : Interaction ℝ,
      (∀ rsq, smooth raw rsq rcutsq ronsq =
        ⟨factor rsq * raw.forceOverDistance - slope rsq * raw.energy, factor rsq * raw.energy⟩) ∧
      smooth raw ronsq rcutsq ronsq = raw ∧
      smooth raw rcutsq rcutsq ronsq = ⟨0, 0⟩ ∧
      ∀ rsq ∈ Set.Icc ronsq rcutsq, |(smooth raw rsq rcutsq ronsq).energy| ≤ |raw.energy| := by
  have switches := switchesOff_switching window
  exact ⟨_, _, switches, fun raw => ⟨fun rsq => smooth_real raw rsq rcutsq ronsq,
    smooth_onset window raw, smooth_cutoff raw,
    fun _ member => abs_energy_smooth_le window member raw⟩⟩

/-- A window in squared separations from four to twenty-five quarters, with a
separation inside it. -/
theorem smooth_switchesOff_window :
    (4 : ℝ) < 25 / 4 ∧ ∃ factor slope, SwitchesOff factor slope (25 / 4) 4 ∧
      smooth ⟨-3, 2⟩ 5 (25 / 4) 4 = ⟨factor 5 * -3 - slope 5 * 2, factor 5 * 2⟩ ∧
      smooth ⟨-3, 2⟩ 4 (25 / 4) 4 = (⟨-3, 2⟩ : Interaction ℝ) ∧
      smooth ⟨-3, 2⟩ (25 / 4) (25 / 4) 4 = (⟨0, 0⟩ : Interaction ℝ) ∧
      |(smooth (⟨-3, 2⟩ : Interaction ℝ) 5 (25 / 4) 4).energy| ≤ |2| := by
  have window : (4 : ℝ) < 25 / 4 := by norm_num
  have member : (5 : ℝ) ∈ Set.Icc 4 (25 / 4) := by norm_num
  rcases smooth_switchesOff window with ⟨factor, slope, switches, smoothed⟩
  rcases smoothed ⟨-3, 2⟩ with ⟨product, atOnset, atCutoff, bounded⟩
  exact ⟨window, factor, slope, switches, product 5, atOnset, atCutoff, bounded 5 member⟩

end Nonbonded.ShiftMode
