import Mathlib.Analysis.SpecialFunctions.Pow.Real
import Nonbonded.Law.Gauss
import Nonbonded.Law.ShiftedLennardJones
import Nonbonded.Law.Yukawa
import Nonbonded.Proofs.Exact.Scalar

/-!
# The form of a law

Every law of this library has one form.  For given parameters and given
properties of the two particles it is switched off or on; where it is on, it
assigns an interaction to each squared separation, and that is the result below
the cutoff, with the energy lowered by a level that depends on the cutoff alone
when a shifted energy is asked for.  Which parameters and charges switch a law
off is stated for each law.

What is said about results of a law then needs to be said about the
interactions it assigns.  These are given here as functions of the distance.
The two Lennard-Jones laws are one such function, of the distance less a
displacement that is zero for the plain law.
-/

namespace Nonbonded

namespace PairLaw

/-- The laws of this library. -/
inductive Bundled {α : Type} [Scalar α] : PairLaw α → Prop
  | lennardJones : Bundled lennardJones
  | shiftedLennardJones : Bundled shiftedLennardJones
  | gauss : Bundled gauss
  | yukawa : Bundled yukawa
  | coulomb : Bundled coulomb

/-- How a law treats two particles: whether it is off, the interaction at each
squared separation, and the energy level at each squared cutoff. -/
structure Form (law : PairLaw ℝ) (params : law.Params) (diameters charges : Option (ℝ × ℝ)) where
  off : Prop
  interaction : ℝ → Interaction ℝ
  level : ℝ → ℝ
  evaluate_of_off : ∀ {rsq rcutsq shifted}, off →
    law.evaluate params ⟨rsq, rcutsq, diameters, charges⟩ shifted = none
  evaluate_of_le : ∀ {rsq rcutsq shifted}, rcutsq ≤ rsq →
    law.evaluate params ⟨rsq, rcutsq, diameters, charges⟩ shifted = none
  evaluate_of_on : ∀ {rsq rcutsq shifted}, ¬off → rsq < rcutsq →
    law.evaluate params ⟨rsq, rcutsq, diameters, charges⟩ shifted =
      some ((interaction rsq).lower shifted (level rcutsq))

/-- A law is off for two particles when it gives no result at any separation,
whatever the cutoff. -/
def Off (law : PairLaw ℝ) (params : law.Params) (diameters charges : Option (ℝ × ℝ)) : Prop :=
  ∀ rsq rcutsq shifted, law.evaluate params ⟨rsq, rcutsq, diameters, charges⟩ shifted = none

theorem Form.off_iff {law : PairLaw ℝ} {params : law.Params} {diameters charges : Option (ℝ × ℝ)}
    (form : law.Form params diameters charges) :
    form.off ↔ law.Off params diameters charges := by
  constructor
  · intro off rsq rcutsq shifted
    exact form.evaluate_of_off off
  · intro nothing
    by_contra on
    have given : law.evaluate params ⟨0, 1, diameters, charges⟩ false = some _ :=
      form.evaluate_of_on on zero_lt_one
    rw [nothing] at given
    cases given

/-- A result is given only where the law is on and below the cutoff. -/
theorem Form.on_of_eq_some {law : PairLaw ℝ} {params : law.Params}
    {diameters charges : Option (ℝ × ℝ)} (form : law.Form params diameters charges)
    {rsq rcutsq : ℝ} {shifted : Bool} {pair : Interaction ℝ}
    (given : law.evaluate params ⟨rsq, rcutsq, diameters, charges⟩ shifted = some pair) :
    ¬form.off ∧ rsq < rcutsq := by
  constructor
  · intro off
    rw [form.evaluate_of_off off] at given
    cases given
  · by_contra beyond
    rw [form.evaluate_of_le (not_lt.1 beyond)] at given
    cases given

variable (diameters charges : Option (ℝ × ℝ))

/-- The Lennard-Jones law is off without repulsion. -/
noncomputable def lennardJonesForm (params : LennardJones.Params ℝ) :
    (lennardJones : PairLaw ℝ).Form params diameters charges where
  off := params.coefficients.repulsive = 0
  interaction := LennardJones.interactionAt params.coefficients
  level := LennardJones.energyAt params.coefficients
  evaluate_of_off off := by
    simp [lennardJones, Scalar.numeral_real, off]
  evaluate_of_le beyond := by
    simp [lennardJones, Scalar.numeral_real, beyond]
  evaluate_of_on on close := by
    simp [lennardJones, Scalar.numeral_real, on, close]

/-- The displaced law is off without repulsion. -/
noncomputable def shiftedLennardJonesForm (params : LennardJones.Params ℝ) :
    (shiftedLennardJones : PairLaw ℝ).Form params diameters charges where
  off := params.coefficients.repulsive = 0
  interaction := ShiftedLennardJones.interactionAt params.coefficients
    (ShiftedLennardJones.displacement diameters)
  level := ShiftedLennardJones.cutoffEnergy params.coefficients
    (ShiftedLennardJones.displacement diameters)
  evaluate_of_off off := by
    simp [shiftedLennardJones, Scalar.numeral_real, off]
  evaluate_of_le beyond := by
    simp [shiftedLennardJones, Scalar.numeral_real, beyond]
  evaluate_of_on on close := by
    simp [shiftedLennardJones, Scalar.numeral_real, on, close]

/-- The Gaussian law is off at width zero. -/
noncomputable def gaussForm (params : Gauss.Params ℝ) :
    (gauss : PairLaw ℝ).Form params diameters charges where
  off := params.sigma = 0
  interaction := Gauss.interactionAt params
  level rcutsq := (Gauss.interactionAt params rcutsq).energy
  evaluate_of_off off := by
    simp [gauss, Scalar.numeral_real, off]
  evaluate_of_le beyond := by
    simp [gauss, Scalar.numeral_real, beyond]
  evaluate_of_on on close := by
    simp [gauss, Scalar.numeral_real, on, close]

/-- The Yukawa law is off at strength zero. -/
noncomputable def yukawaForm (params : Yukawa.Params ℝ) :
    (yukawa : PairLaw ℝ).Form params diameters charges where
  off := params.epsilon = 0
  interaction := Yukawa.interactionAt params.epsilon params.kappa
  level rcutsq := (Yukawa.interactionAt params.epsilon params.kappa rcutsq).energy
  evaluate_of_off off := by
    simp [yukawa, Yukawa.evaluate, Scalar.numeral_real, off]
  evaluate_of_le beyond := by
    simp [yukawa, Yukawa.evaluate, Scalar.numeral_real, beyond]
  evaluate_of_on on close := by
    simp [yukawa, Yukawa.evaluate, Scalar.numeral_real, on, close]

/-- The Coulomb law is off when its prefactor or one of the charges is zero. -/
noncomputable def coulombForm (params : Coulomb.Params ℝ) :
    (coulomb : PairLaw ℝ).Form params diameters charges where
  off := params.prefactor * Coulomb.chargeProduct charges = 0
  interaction := Yukawa.interactionAt (params.prefactor * Coulomb.chargeProduct charges)
    params.kappa
  level rcutsq := (Yukawa.interactionAt (params.prefactor * Coulomb.chargeProduct charges)
    params.kappa rcutsq).energy
  evaluate_of_off off := by
    simp [coulomb, Yukawa.evaluate, Scalar.numeral_real, off]
  evaluate_of_le beyond := by
    simp [coulomb, Yukawa.evaluate, Scalar.numeral_real, beyond]
  evaluate_of_on on close := by
    simp [coulomb, Yukawa.evaluate, Scalar.numeral_real, on, close]

end PairLaw

/-! ## Where a law is off -/

namespace LennardJones

theorem cube_real (x : ℝ) : cube x = x ^ 3 := by
  rw [cube]
  ring

theorem pow6_real (x : ℝ) : pow6 x = x ^ 6 := by
  rw [pow6]
  ring

/-- The repulsion vanishes with the depth and with the diameter. -/
theorem repulsive_eq_zero_iff {params : Params ℝ} :
    params.coefficients.repulsive = 0 ↔ params.epsilon = 0 ∨ params.sigma = 0 := by
  have four : @OfNat.ofNat ℝ 4 (Scalar.numeral 4) ≠ 0 := Nat.cast_ne_zero.2 (by decide)
  simp only [Params.coefficients, pow6_real, mul_eq_zero, four, false_or, or_assoc, or_self,
    pow_eq_zero_iff, ne_eq, OfNat.ofNat_ne_zero, not_false_eq_true]

end LennardJones

/-- The product of the charges vanishes with one of them, and as long as no
charges are known. -/
theorem Coulomb.chargeProduct_eq_zero_iff {charges : Option (ℝ × ℝ)} :
    chargeProduct charges = 0 ↔ ∀ pair ∈ charges, pair.1 = 0 ∨ pair.2 = 0 := by
  cases charges with
  | none => simp [chargeProduct, Scalar.numeral_real]
  | some pair => simp [chargeProduct]

namespace PairLaw

variable {diameters charges : Option (ℝ × ℝ)}

theorem off_lennardJones_iff {params : LennardJones.Params ℝ} :
    (lennardJones : PairLaw ℝ).Off params diameters charges ↔
      params.epsilon = 0 ∨ params.sigma = 0 := by
  rw [← (lennardJonesForm diameters charges params).off_iff]
  exact LennardJones.repulsive_eq_zero_iff

theorem off_shiftedLennardJones_iff {params : LennardJones.Params ℝ} :
    (shiftedLennardJones : PairLaw ℝ).Off params diameters charges ↔
      params.epsilon = 0 ∨ params.sigma = 0 := by
  rw [← (shiftedLennardJonesForm diameters charges params).off_iff]
  exact LennardJones.repulsive_eq_zero_iff

theorem off_gauss_iff {params : Gauss.Params ℝ} :
    (gauss : PairLaw ℝ).Off params diameters charges ↔ params.sigma = 0 :=
  (gaussForm diameters charges params).off_iff.symm

theorem off_yukawa_iff {params : Yukawa.Params ℝ} :
    (yukawa : PairLaw ℝ).Off params diameters charges ↔ params.epsilon = 0 :=
  (yukawaForm diameters charges params).off_iff.symm

/-- Without charges the Coulomb law is off as well. -/
theorem off_coulomb_iff {params : Coulomb.Params ℝ} :
    (coulomb : PairLaw ℝ).Off params diameters charges ↔
      params.prefactor = 0 ∨ ∀ pair ∈ charges, pair.1 = 0 ∨ pair.2 = 0 := by
  rw [← (coulombForm diameters charges params).off_iff, ← Coulomb.chargeProduct_eq_zero_iff]
  exact mul_eq_zero

end PairLaw

/-! ## Interactions by distance -/

namespace LennardJones

/-- The interaction at a distance, where the law is that of the distance less
`delta`. -/
noncomputable def displacedAt (c : Coefficients ℝ) (delta x : ℝ) : Interaction ℝ where
  forceOverDistance :=
    x⁻¹ * ((x - delta)⁻¹ * ((x - delta)⁻¹ ^ 6 * c.steepness ((x - delta)⁻¹ ^ 6)))
  energy := c.energy ((x - delta)⁻¹ ^ 6)

theorem interactionAt_sq (c : Coefficients ℝ) (x : ℝ) :
    interactionAt c (x * x) = displacedAt c 0 x := by
  have sixth : cube (x * x)⁻¹ = x⁻¹ ^ 6 := by
    rw [cube_real, mul_inv]
    ring
  simp only [interactionAt, Scalar.one_real, one_div, sixth, displacedAt, sub_zero,
    Interaction.mk.injEq, and_true]
  rw [mul_inv]
  ring

end LennardJones

/-- At a positive distance, the displaced law is the law of the displaced
distance. -/
theorem ShiftedLennardJones.interactionAt_sq (c : LennardJones.Coefficients ℝ) (delta : ℝ) {x : ℝ}
    (positive : 0 < x) : interactionAt c delta (x * x) = LennardJones.displacedAt c delta x := by
  have root : Scalar.sqrt (x * x) = x := Real.sqrt_mul_self positive.le
  have sixth : inverse6 (x - delta)⁻¹ = (x - delta)⁻¹ ^ 6 := by
    rw [inverse6, LennardJones.cube_real]
    ring
  simp only [interactionAt, root, Scalar.one_real, one_div, inv_inv, sixth,
    LennardJones.displacedAt, Interaction.mk.injEq, and_true]
  ring

/-- The energy at a cutoff is the energy at that separation, although computed
otherwise. -/
theorem ShiftedLennardJones.cutoffEnergy_eq_energy (c : LennardJones.Coefficients ℝ)
    (delta rcutsq : ℝ) : cutoffEnergy c delta rcutsq = (interactionAt c delta rcutsq).energy := by
  simp only [cutoffEnergy, interactionAt, Scalar.one_real, one_div_one_div]

theorem Gauss.interactionAt_sq (params : Params ℝ) (x : ℝ) :
    interactionAt params (x * x) =
      ⟨params.epsilon / params.sigma ^ 2 * Real.exp (-(x ^ 2 / (2 * params.sigma ^ 2))),
        params.epsilon * Real.exp (-(x ^ 2 / (2 * params.sigma ^ 2)))⟩ := by
  have height : bell (params.sigma * params.sigma) (x * x) =
      Real.exp (-(x ^ 2 / (2 * params.sigma ^ 2))) := by
    change Real.exp (-Scalar.half * (x * x) / (params.sigma * params.sigma)) = _
    rw [Scalar.half_real]
    congr 1
    ring
  simp only [interactionAt, height, sq params.sigma]

theorem Yukawa.interactionAt_sq (strength kappa : ℝ) {x : ℝ} (positive : 0 < x) :
    interactionAt strength kappa (x * x) =
      ⟨strength * Real.exp (-kappa * x) * (x⁻¹ + kappa) / (x * x),
        strength * Real.exp (-kappa * x) * x⁻¹⟩ := by
  have root : Scalar.sqrt (x * x) = x := Real.sqrt_mul_self positive.le
  simp only [interactionAt, root, Scalar.one_real, one_div]
  rfl

end Nonbonded
