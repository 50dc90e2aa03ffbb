import Mathlib.Analysis.Calculus.Deriv.Inv
import Mathlib.Analysis.Calculus.Deriv.Pow
import Mathlib.Analysis.SpecialFunctions.ExpDeriv
import Mathlib.Topology.Algebra.Module.ModuleTopology
import Nonbonded.PairSum
import Nonbonded.Proofs.Exact.LawForm

/-!
# Forces as slopes of energies

In exact arithmetic the force of every law of this library is the slope of its
energy over the distance, with the sign turned.  The shift modes preserve this:
lowering takes a constant off the energy, and smoothing multiplies the energy
by a switching factor whose slope the force makes up for.  At the onset of
smoothing the factor is one and flat, so the two pieces join without a kink.
-/

namespace Nonbonded

open Filter Topology

/-- Along a family of interactions over the distance, the force at one distance
is the slope of the energy with the sign turned. -/
def Interaction.IsSlopeAt (family : ℝ → Interaction ℝ) (r : ℝ) : Prop :=
  HasDerivAt (fun x => (family x).energy) (-((family r).forceOverDistance * r)) r

theorem Interaction.IsSlopeAt.lower {family : ℝ → Interaction ℝ} {r : ℝ}
    (slope : IsSlopeAt family r) (shifted : Bool) (level : ℝ) :
    IsSlopeAt (fun x => (family x).lower shifted level) r := by
  unfold IsSlopeAt
  rw [forceOverDistance_lower]
  cases shifted with
  | false => exact slope
  | true => exact slope.sub_const level

/-- Only the interactions near the distance matter. -/
theorem Interaction.IsSlopeAt.congr {family other : ℝ → Interaction ℝ} {r : ℝ}
    (slope : IsSlopeAt family r) (same : other =ᶠ[𝓝 r] family) : IsSlopeAt other r := by
  unfold IsSlopeAt
  rw [same.eq_of_nhds]
  exact HasDerivAt.congr_of_eventuallyEq slope (same.fun_comp Interaction.energy)

/-! ## The laws -/

namespace LennardJones

theorem Coefficients.steepness_real (c : Coefficients ℝ) (u : ℝ) :
    c.steepness u = 6 * (2 * c.repulsive * u - c.attractive) := by
  simp only [steepness, Scalar.numeral_real]
  push_cast
  ring

/-- The slope of the energy in the inverse sixth power. -/
theorem Coefficients.hasDerivAt_energy (c : Coefficients ℝ) (u : ℝ) :
    HasDerivAt c.energy (2 * c.repulsive * u - c.attractive) u := by
  have linear : HasDerivAt (fun v => c.repulsive * v - c.attractive) c.repulsive u :=
    (hasDerivAt_const_mul c.repulsive).sub_const c.attractive
  have product : HasDerivAt (fun v => v * (c.repulsive * v - c.attractive))
      (1 * (c.repulsive * u - c.attractive) + u * c.repulsive) u :=
    (hasDerivAt_id' u).mul linear
  exact product.congr_deriv (by ring)

theorem hasDerivAt_inverse6 {delta r : ℝ} (apart : r ≠ delta) :
    HasDerivAt (fun x => (x - delta)⁻¹ ^ 6) (-(6 * ((r - delta)⁻¹ * (r - delta)⁻¹ ^ 6))) r := by
  have nonzero : r - delta ≠ 0 := sub_ne_zero.2 apart
  have inverse : HasDerivAt (fun x => (x - delta)⁻¹) (-1 / (r - delta) ^ 2) r :=
    ((hasDerivAt_id' r).sub_const delta).fun_inv nonzero
  refine (inverse.fun_pow 6).congr_deriv ?_
  push_cast
  field_simp

theorem isSlopeAt_displacedAt (c : Coefficients ℝ) {delta r : ℝ} (nonzero : r ≠ 0)
    (apart : r ≠ delta) : Interaction.IsSlopeAt (displacedAt c delta) r := by
  have chain := (c.hasDerivAt_energy ((r - delta)⁻¹ ^ 6)).comp r (hasDerivAt_inverse6 apart)
  refine chain.congr_deriv ?_
  rw [displacedAt, c.steepness_real]
  field_simp

end LennardJones

theorem Gauss.isSlopeAt_interactionAt (params : Params ℝ) (r : ℝ) :
    Interaction.IsSlopeAt (fun x => interactionAt params (x * x)) r := by
  have exponent : HasDerivAt (fun x => -(x ^ 2 / (2 * params.sigma ^ 2)))
      (-(2 * r / (2 * params.sigma ^ 2))) r := by
    refine (((hasDerivAt_pow 2 r).div_const (2 * params.sigma ^ 2)).fun_neg).congr_deriv ?_
    norm_num
  unfold Interaction.IsSlopeAt
  simp only [interactionAt_sq]
  refine (exponent.exp.const_mul params.epsilon).congr_deriv ?_
  ring

theorem Yukawa.isSlopeAt_interactionAt (strength kappa : ℝ) {r : ℝ} (positive : 0 < r) :
    Interaction.IsSlopeAt (fun x => interactionAt strength kappa (x * x)) r := by
  suffices slope : Interaction.IsSlopeAt (fun x =>
      ⟨strength * Real.exp (-kappa * x) * (x⁻¹ + kappa) / (x * x),
        strength * Real.exp (-kappa * x) * x⁻¹⟩) r by
    apply slope.congr
    filter_upwards [eventually_gt_nhds positive] with x positive
    exact interactionAt_sq strength kappa positive
  have screening : HasDerivAt (fun x => strength * Real.exp (-kappa * x))
      (strength * (Real.exp (-kappa * r) * -kappa)) r :=
    ((hasDerivAt_const_mul (-kappa)).exp).const_mul strength
  refine (screening.fun_mul (hasDerivAt_inv positive.ne')).congr_deriv ?_
  dsimp only
  field_simp
  ring

/-- A law of this library assigns, where it is on, interactions whose force is
the slope of the energy, except at the distance where a displaced law is
singular. -/
theorem PairLaw.Bundled.exists_form {law : PairLaw ℝ} (bundled : law.Bundled)
    (params : law.Params) (diameters charges : Option (ℝ × ℝ)) {r : ℝ} (positive : 0 < r)
    (apart : law = .shiftedLennardJones → r ≠ ShiftedLennardJones.displacement diameters) :
    ∃ form : law.Form params diameters charges,
      Interaction.IsSlopeAt (fun x => form.interaction (x * x)) r := by
  cases bundled with
  | lennardJones =>
      refine ⟨lennardJonesForm diameters charges params, ?_⟩
      simp only [lennardJonesForm, LennardJones.interactionAt_sq]
      exact LennardJones.isSlopeAt_displacedAt _ positive.ne' positive.ne'
  | shiftedLennardJones =>
      refine ⟨shiftedLennardJonesForm diameters charges params, ?_⟩
      apply (LennardJones.isSlopeAt_displacedAt _ positive.ne' (apart rfl)).congr
      filter_upwards [eventually_gt_nhds positive] with x positive
      exact ShiftedLennardJones.interactionAt_sq _ _ positive
  | gauss => exact ⟨gaussForm diameters charges params, Gauss.isSlopeAt_interactionAt params r⟩
  | yukawa =>
      exact ⟨yukawaForm diameters charges params, Yukawa.isSlopeAt_interactionAt _ _ positive⟩
  | coulomb =>
      exact ⟨coulombForm diameters charges params, Yukawa.isSlopeAt_interactionAt _ _ positive⟩

/-! ## Smoothing -/

namespace ShiftMode

theorem switching_real (rsq rcutsq ronsq inverse : ℝ) :
    switching rsq rcutsq ronsq inverse =
      (rsq - rcutsq) ^ 2 * (rcutsq + 2 * rsq - 3 * ronsq) * inverse := by
  simp only [switching, Scalar.numeral_real]
  push_cast
  ring

theorem switchingSlope_real (rsq rcutsq ronsq inverse : ℝ) :
    switchingSlope rsq rcutsq ronsq inverse =
      12 * (rsq - ronsq) * (rsq - rcutsq) * inverse := by
  simp only [switchingSlope, Scalar.numeral_real]

/-- The reciprocal of the cubed window between onset and cutoff. -/
noncomputable def windowInverse (rcutsq ronsq : ℝ) : ℝ :=
  ((rcutsq - ronsq) ^ 3)⁻¹

theorem smooth_real (raw : Interaction ℝ) (rsq rcutsq ronsq : ℝ) :
    smooth raw rsq rcutsq ronsq =
      ⟨switching rsq rcutsq ronsq (windowInverse rcutsq ronsq) * raw.forceOverDistance -
          switchingSlope rsq rcutsq ronsq (windowInverse rcutsq ronsq) * raw.energy,
        switching rsq rcutsq ronsq (windowInverse rcutsq ronsq) * raw.energy⟩ := by
  have inverse : ((rcutsq - ronsq) * (rcutsq - ronsq) * (rcutsq - ronsq))⁻¹ =
      windowInverse rcutsq ronsq := by
    rw [windowInverse, pow_succ, sq]
  simp only [smooth, Scalar.one_real, one_div, inverse]

/-- The slope is twice the derivative with respect to the squared
separation. -/
theorem hasDerivAt_switching_rsq (rcutsq ronsq inverse rsq : ℝ) :
    HasDerivAt (fun x => switching x rcutsq ronsq inverse)
      (switchingSlope rsq rcutsq ronsq inverse / 2) rsq := by
  have closing := ((hasDerivAt_id' rsq).sub_const rcutsq).fun_pow 2
  have opening := (((hasDerivAt_id' rsq).const_mul 2).const_add rcutsq).sub_const (3 * ronsq)
  simp only [switching_real, switchingSlope_real]
  refine ((closing.fun_mul opening).mul_const inverse).congr_deriv ?_
  push_cast
  ring

theorem hasDerivAt_switching (rcutsq ronsq inverse r : ℝ) :
    HasDerivAt (fun x => switching (x * x) rcutsq ronsq inverse)
      (switchingSlope (r * r) rcutsq ronsq inverse * r) r := by
  have square : HasDerivAt (fun x : ℝ => x * x) (1 * r + r * 1) r :=
    (hasDerivAt_id' r).fun_mul (hasDerivAt_id' r)
  have chain := (hasDerivAt_switching_rsq rcutsq ronsq inverse (r * r)).comp_of_eq r square rfl
  exact chain.congr_deriv (by ring)

theorem switching_onset {rcutsq ronsq : ℝ} (window : ronsq ≠ rcutsq) :
    switching ronsq rcutsq ronsq (windowInverse rcutsq ronsq) = 1 := by
  have nonzero : rcutsq - ronsq ≠ 0 := sub_ne_zero.2 window.symm
  rw [switching_real, windowInverse]
  field_simp
  ring

theorem switchingSlope_onset (rcutsq ronsq inverse : ℝ) :
    switchingSlope ronsq rcutsq ronsq inverse = 0 := by
  rw [switchingSlope_real, sub_self, mul_zero, zero_mul, zero_mul]

/-- The factor that a mode puts on the energy. -/
noncomputable def factor (mode : ShiftMode) (rsq rcutsq ronsq : ℝ) : ℝ :=
  if mode.smooths rsq rcutsq ronsq then switching rsq rcutsq ronsq (windowInverse rcutsq ronsq)
  else 1

/-- The slope of that factor over the distance. -/
noncomputable def factorSlope (mode : ShiftMode) (rsq rcutsq ronsq : ℝ) : ℝ :=
  if mode.smooths rsq rcutsq ronsq then
    switchingSlope rsq rcutsq ronsq (windowInverse rcutsq ronsq)
  else 0

theorem apply_real (mode : ShiftMode) (raw : Interaction ℝ) (rsq rcutsq ronsq : ℝ) :
    mode.apply raw rsq rcutsq ronsq =
      ⟨mode.factor rsq rcutsq ronsq * raw.forceOverDistance -
          mode.factorSlope rsq rcutsq ronsq * raw.energy,
        mode.factor rsq rcutsq ronsq * raw.energy⟩ := by
  unfold apply factor factorSlope
  split
  · exact smooth_real raw rsq rcutsq ronsq
  · simp only [one_mul, zero_mul, sub_zero]

variable {cutoff onset : ℝ}

/-- Before the onset, or when there is no window, nothing is smoothed. -/
theorem smooths_xplor_of_lt {x : ℝ} (positive : 0 < x) (before : x < onset) :
    xplor.smooths (x * x) (cutoff * cutoff) (onset * onset) = false := by
  have beyond : ¬onset * onset ≤ x * x := not_le.2 (mul_self_lt_mul_self positive.le before)
  rw [smooths, decide_eq_false beyond, Bool.false_and]

theorem smooths_xplor_of_le {x : ℝ} (start : 0 ≤ onset) (after : onset ≤ x)
    (window : onset ≤ cutoff) :
    xplor.smooths (x * x) (cutoff * cutoff) (onset * onset) = true := by
  rw [smooths, decide_eq_true (mul_self_le_mul_self start after),
    decide_eq_true (mul_self_le_mul_self start window), Bool.and_true]

/-- At the onset the factor is one and flat from either side. -/
theorem hasDerivAt_factor_onset (positive : 0 < onset) (window : onset < cutoff) :
    HasDerivAt (fun x => xplor.factor (x * x) (cutoff * cutoff) (onset * onset)) 0 onset := by
  have distinct : onset * onset ≠ cutoff * cutoff :=
    (mul_self_lt_mul_self positive.le window).ne
  have here : xplor.factor (onset * onset) (cutoff * cutoff) (onset * onset) = 1 := by
    rw [factor, if_pos (smooths_xplor_of_le positive.le le_rfl window.le),
      switching_onset distinct]
  have fromLeft : HasDerivWithinAt
      (fun x => xplor.factor (x * x) (cutoff * cutoff) (onset * onset)) 0 (Set.Iic onset)
        onset := by
    apply (hasDerivWithinAt_const onset (Set.Iic onset) 1).congr_of_eventuallyEq _ here
    filter_upwards [self_mem_nhdsWithin, nhdsWithin_le_nhds (eventually_gt_nhds positive)]
      with x atMost distance
    rcases (Set.mem_Iic.1 atMost).lt_or_eq with before | rfl
    · rw [factor, smooths_xplor_of_lt distance before]
      rfl
    · exact here
  have fromRight : HasDerivWithinAt
      (fun x => xplor.factor (x * x) (cutoff * cutoff) (onset * onset)) 0 (Set.Ici onset)
        onset := by
    have polynomial := (hasDerivAt_switching (cutoff * cutoff) (onset * onset)
      (windowInverse (cutoff * cutoff) (onset * onset)) onset).hasDerivWithinAt
        (s := Set.Ici onset)
    rw [switchingSlope_onset, zero_mul] at polynomial
    apply polynomial.congr_of_eventuallyEq_of_mem _ Set.self_mem_Ici
    filter_upwards [self_mem_nhdsWithin] with x after
    rw [factor, if_pos (smooths_xplor_of_le positive.le after window.le)]
  rw [← hasDerivWithinAt_univ, ← Set.Iic_union_Ici]
  exact fromLeft.union fromRight

/-- The factor has the slope that the force makes up for. -/
theorem hasDerivAt_factor (mode : ShiftMode) {r : ℝ} (start : 0 ≤ onset) (positive : 0 < r)
    (below : r < cutoff) :
    HasDerivAt (fun x => mode.factor (x * x) (cutoff * cutoff) (onset * onset))
      (mode.factorSlope (r * r) (cutoff * cutoff) (onset * onset) * r) r := by
  cases mode with
  | none => simpa [factor, factorSlope, smooths] using hasDerivAt_const r (1 : ℝ)
  | shift => simpa [factor, factorSlope, smooths] using hasDerivAt_const r (1 : ℝ)
  | xplor =>
      rcases lt_trichotomy r onset with before | rfl | after
      · have off : ∀ {x}, 0 < x → x < onset →
            xplor.factor (x * x) (cutoff * cutoff) (onset * onset) = 1 := by
          intro x distance outside
          rw [factor, smooths_xplor_of_lt distance outside]
          rfl
        rw [factorSlope, smooths_xplor_of_lt positive before, if_neg Bool.false_ne_true,
          zero_mul]
        apply (hasDerivAt_const r 1).congr_of_eventuallyEq
        filter_upwards [eventually_gt_nhds positive, eventually_lt_nhds before] with
          x distance outside
        exact off distance outside
      · rw [factorSlope, if_pos (smooths_xplor_of_le start le_rfl below.le), switchingSlope_onset,
          zero_mul]
        exact hasDerivAt_factor_onset positive below
      · have window : onset ≤ cutoff := (after.trans below).le
        rw [factorSlope, if_pos (smooths_xplor_of_le start after.le window)]
        apply (hasDerivAt_switching _ _ _ r).congr_of_eventuallyEq
        filter_upwards [eventually_gt_nhds after] with x inside
        rw [factor, if_pos (smooths_xplor_of_le start inside.le window)]

end ShiftMode

/-- What a mode does to an interaction keeps the force the slope of the
energy. -/
theorem Interaction.IsSlopeAt.apply {family : ℝ → Interaction ℝ} {r cutoff onset : ℝ}
    (slope : IsSlopeAt family r) (mode : ShiftMode) (start : 0 ≤ onset) (positive : 0 < r)
    (below : r < cutoff) :
    IsSlopeAt (fun x => mode.apply (family x) (x * x) (cutoff * cutoff) (onset * onset)) r := by
  unfold IsSlopeAt
  simp only [ShiftMode.apply_real]
  refine ((mode.hasDerivAt_factor start positive below).fun_mul slope).congr_deriv ?_
  ring

/-! ## Processed interactions -/

/-- The energy of a pair at a distance, as the sum over listed pairs uses it;
zero where the pair does not interact. -/
noncomputable def PairEntry.energyAt {law : PairLaw ℝ} (entry : PairEntry law) (mode : ShiftMode)
    (diameters charges : Option (ℝ × ℝ)) (distance : ℝ) : ℝ :=
  (entry.interaction? mode (distance * distance) diameters charges).elim 0 (·.energy)

variable {law : PairLaw ℝ} {params : law.Params} {mode : ShiftMode}
  {diameters charges : Option (ℝ × ℝ)} {cutoff onset : ℝ}

/-- Where a law is on, the interactions of a pair below the cutoff are those
that the law assigns, lowered and smoothed. -/
theorem PairLaw.Form.interaction?_eq (form : law.Form params diameters charges) (on : ¬form.off)
    {rsq rcutsq ronsq : ℝ} (close : rsq < rcutsq) :
    (⟨rcutsq, ronsq, params⟩ : PairEntry law).interaction? mode rsq diameters charges =
      some (mode.apply ((form.interaction rsq).lower (mode.shifts rcutsq ronsq)
        (form.level rcutsq)) rsq rcutsq ronsq) := by
  rw [PairEntry.interaction?, form.evaluate_of_on on close]
  rfl

/-- For every law of this library that is not off, and every mode, a pair at a
distance below the cutoff interacts, and the force is the slope of the energy
with the sign turned.  A displaced law is singular at one distance, which is
left out. -/
theorem hasDerivAt_energyAt (bundled : law.Bundled) (on : ¬law.Off params diameters charges)
    (start : 0 ≤ onset) {r : ℝ} (positive : 0 < r) (below : r < cutoff)
    (apart : law = .shiftedLennardJones → r ≠ ShiftedLennardJones.displacement diameters) :
    ∃ pair, (⟨cutoff * cutoff, onset * onset, params⟩ : PairEntry law).interaction? mode (r * r)
        diameters charges = some pair ∧
      HasDerivAt
        ((⟨cutoff * cutoff, onset * onset, params⟩ : PairEntry law).energyAt mode diameters
          charges)
        (-(pair.forceOverDistance * r)) r := by
  rcases bundled.exists_form params diameters charges positive apart with ⟨form, slope⟩
  rw [← form.off_iff] at on
  have given : ∀ {x}, 0 < x → x < cutoff →
      (⟨cutoff * cutoff, onset * onset, params⟩ : PairEntry law).interaction? mode (x * x)
          diameters charges =
        some (mode.apply ((form.interaction (x * x)).lower
          (mode.shifts (cutoff * cutoff) (onset * onset)) (form.level (cutoff * cutoff)))
            (x * x) (cutoff * cutoff) (onset * onset)) :=
    fun distance inside => form.interaction?_eq on (mul_self_lt_mul_self distance.le inside)
  refine ⟨_, given positive below, ?_⟩
  have processed := (slope.lower (mode.shifts (cutoff * cutoff) (onset * onset))
    (form.level (cutoff * cutoff))).apply mode start positive below
  -- The energy is that of the processed interactions all around the distance.
  apply HasDerivAt.congr_of_eventuallyEq processed
  filter_upwards [eventually_gt_nhds positive, eventually_lt_nhds below] with x distance inside
  rw [PairEntry.energyAt, given distance inside]
  rfl

/-- Particles of unequal size, smoothed from a distance of two, at just that
distance. -/
theorem hasDerivAt_energyAt_onset :
    (PairLaw.shiftedLennardJones : PairLaw ℝ).Bundled ∧
      ¬(PairLaw.shiftedLennardJones : PairLaw ℝ).Off ⟨1, 1, 1⟩ (some (2, 1)) none ∧
      (0 : ℝ) ≤ 2 ∧ (0 : ℝ) < 2 ∧ (2 : ℝ) < 5 / 2 ∧
      (2 : ℝ) ≠ ShiftedLennardJones.displacement (some (2, 1)) ∧
      ∃ pair, (⟨5 / 2 * (5 / 2), 2 * 2, ⟨1, 1, 1⟩⟩ :
          PairEntry (PairLaw.shiftedLennardJones : PairLaw ℝ)).interaction? .xplor (2 * 2)
            (some (2, 1)) none = some pair ∧
        HasDerivAt
          ((⟨5 / 2 * (5 / 2), 2 * 2, ⟨1, 1, 1⟩⟩ :
            PairEntry (PairLaw.shiftedLennardJones : PairLaw ℝ)).energyAt .xplor (some (2, 1))
              none)
          (-(pair.forceOverDistance * 2)) 2 := by
  have on : ¬(PairLaw.shiftedLennardJones : PairLaw ℝ).Off ⟨1, 1, 1⟩ (some (2, 1)) none := by
    rw [PairLaw.off_shiftedLennardJones_iff]
    norm_num
  have apart : (2 : ℝ) ≠ ShiftedLennardJones.displacement (some (2, 1)) := by
    rw [ShiftedLennardJones.displacement, Scalar.half_real, Scalar.one_real]
    norm_num
  exact ⟨.shiftedLennardJones, on, by norm_num, by norm_num, by norm_num, apart,
    hasDerivAt_energyAt .shiftedLennardJones on (by norm_num) (by norm_num) (by norm_num)
      fun _ => apart⟩

end Nonbonded
