import Nonbonded.Proofs.Exact.LawForm
import Nonbonded.Proofs.Exact.Totals
import Nonbonded.Proofs.PairSum.Shifting
import Nonbonded.Proofs.PairSum.Sharing
import Nonbonded.Proofs.Potential.Modes

/-!
# What shifting takes from the energies

A law of this library that is asked for shifted energies lowers the energy of
an interaction by the energy it assigns, unshifted, to the two particles at the
cutoff of their types.  So in exact arithmetic shifting takes a constant from
every interacting pair: half of that energy from each of the two particles when
the pair is listed once, and half of it from the particle whose list it is on
when it is listed from both sides.

Which pairs interact does not depend on shifting, nor do forces and virials, in
any arithmetic.
-/

namespace Nonbonded

namespace PairLaw

/-- The laws of this library shift energies only. -/
theorem Bundled.shiftsEnergiesOnly {α : Type} [Scalar α] {law : PairLaw α}
    (bundled : law.Bundled) : law.ShiftsEnergiesOnly := by
  have lowered : ∀ (off : Bool) (raw : Interaction α) (atCutoff : α),
      Option.Rel Interaction.SameForce (if off then none else some (raw.lower false atCutoff))
        (if off then none else some (raw.lower true atCutoff)) := by
    intro off raw atCutoff
    cases off with
    | true => exact .none
    | false => exact .some rfl
  intro params pair
  cases bundled <;> exact lowered _ _ _

/-- The energy that a law assigns to two particles at a squared separation when
it is not shifted.  The cutoff is beyond the separation, and does not matter
otherwise. -/
noncomputable def energyAt (law : PairLaw ℝ) (params : law.Params)
    (diameters charges : Option (ℝ × ℝ)) (rsq : ℝ) : ℝ :=
  (law.evaluate params ⟨rsq, rsq + 1, diameters, charges⟩ false).elim 0 (·.energy)

variable {law : PairLaw ℝ} {params : law.Params} {diameters charges : Option (ℝ × ℝ)}

theorem Form.energyAt_eq (form : law.Form params diameters charges) (on : ¬form.off) (rsq : ℝ) :
    law.energyAt params diameters charges rsq = (form.interaction rsq).energy := by
  rw [energyAt, form.evaluate_of_on on (lt_add_one rsq)]
  rfl

/-- A law of this library has a form whose level at a cutoff is the energy
there. -/
theorem Bundled.exists_form_level (bundled : law.Bundled) (params : law.Params)
    (diameters charges : Option (ℝ × ℝ)) : ∃ form : law.Form params diameters charges,
      ∀ rcutsq, form.level rcutsq = (form.interaction rcutsq).energy := by
  cases bundled with
  | lennardJones => exact ⟨lennardJonesForm diameters charges params, fun _ => rfl⟩
  | shiftedLennardJones =>
      exact ⟨shiftedLennardJonesForm diameters charges params,
        ShiftedLennardJones.cutoffEnergy_eq_energy _ _⟩
  | gauss => exact ⟨gaussForm diameters charges params, fun _ => rfl⟩
  | yukawa => exact ⟨yukawaForm diameters charges params, fun _ => rfl⟩
  | coulomb => exact ⟨coulombForm diameters charges params, fun _ => rfl⟩

/-- Asked for shifted energies, a law of this library lowers them by the energy
at the cutoff. -/
theorem Bundled.evaluate_shifted (bundled : law.Bundled) (params : law.Params) (rsq rcutsq : ℝ)
    (diameters charges : Option (ℝ × ℝ)) :
    law.evaluate params ⟨rsq, rcutsq, diameters, charges⟩ true =
      (law.evaluate params ⟨rsq, rcutsq, diameters, charges⟩ false).map
        (·.lower true (law.energyAt params diameters charges rcutsq)) := by
  rcases bundled.exists_form_level params diameters charges with ⟨form, level⟩
  by_cases off : form.off
  · rw [form.evaluate_of_off off, form.evaluate_of_off off]
    rfl
  by_cases beyond : rcutsq ≤ rsq
  · rw [form.evaluate_of_le beyond, form.evaluate_of_le beyond]
    rfl
  · rw [form.evaluate_of_on off (not_le.1 beyond), form.evaluate_of_on off (not_le.1 beyond),
      form.energyAt_eq off, level]
    rfl

end PairLaw

namespace PairSum

variable {law : PairLaw ℝ} {sum : PairSum law} {i j : Nat}

/-! ## One partner -/

/-- A listed partner is within the cutoff, and the law gives it an
interaction. -/
def Interacts (sum : PairSum law) (i j : Nat) : Prop :=
  ∃ share, sum.term i j = .ok (some share)

/-- What is read of two particles tells whether they interact. -/
theorem Reads.interacts_iff {offset : Vec3 ℝ} {entry : PairEntry law}
    {diameters charges : Option (ℝ × ℝ)} (reads : sum.Reads i j offset entry diameters charges) :
    sum.Interacts i j ↔ offset.normSq < entry.rcutsq ∧
      ∃ pair, law.evaluate entry.params ⟨offset.normSq, entry.rcutsq, diameters, charges⟩
        (sum.shiftMode.shifts entry.rcutsq entry.ronsq) = some pair := by
  rw [Interacts, term_eq reads, ← not_le]
  by_cases beyond : entry.rcutsq ≤ offset.normSq
  · simp [beyond]
  · simp [beyond, PairEntry.interaction?]

/-- Two particles interact when both can be read, their distance is below the
cutoff of their types, and the law gives a result. -/
theorem interacts_iff :
    sum.Interacts i j ↔ ∃ offset entry diameters charges,
      sum.Reads i j offset entry diameters charges ∧ offset.normSq < entry.rcutsq ∧
      ∃ pair, law.evaluate entry.params ⟨offset.normSq, entry.rcutsq, diameters, charges⟩
        (sum.shiftMode.shifts entry.rcutsq entry.ronsq) = some pair := by
  constructor
  · rintro ⟨share, found⟩
    rcases exists_reads_of_term found with ⟨offset, entry, diameters, charges, reads⟩
    exact ⟨offset, entry, diameters, charges, reads, reads.interacts_iff.1 ⟨share, found⟩⟩
  · rintro ⟨offset, entry, diameters, charges, reads, holds⟩
    exact reads.interacts_iff.2 holds

/-- The energy that the law, not shifted, assigns to two particles at the
cutoff of their types. -/
noncomputable def cutoffEnergy (sum : PairSum law) (i j : Nat) : ℝ :=
  let energy : Except Fault ℝ := do
    let entry ← sum.entry i j
    let diameters ← both law.needsDiameter sum.system.diameter i j
    let charges ← both law.needsCharge sum.system.charge i j
    return law.energyAt entry.params diameters charges entry.rcutsq
  energy.toOption.getD 0

theorem cutoffEnergy_eq {offset : Vec3 ℝ} {entry : PairEntry law}
    {diameters charges : Option (ℝ × ℝ)} (reads : sum.Reads i j offset entry diameters charges) :
    sum.cutoffEnergy i j = law.energyAt entry.params diameters charges entry.rcutsq := by
  rw [cutoffEnergy, reads.entry, reads.diameters, reads.charges]
  rfl

open Classical in
/-- The energy at the cutoff of a listed partner that interacts; zero for one
that does not. -/
noncomputable def level (sum : PairSum law) (i j : Nat) : ℝ :=
  if (sum.inMode .none).Interacts i j then sum.cutoffEnergy i j else 0

/-- Shifting takes half of the energy at the cutoff from what an interacting
partner contributes. -/
theorem energy_credit_shift (bundled : law.Bundled) (typed : sum.WellTyped)
    (hi : i < sum.system.size) (hj : j < sum.system.size) :
    ((sum.inMode .shift).credit i j).energy =
      ((sum.inMode .none).credit i j).energy - 1 / 2 * sum.level i j := by
  rcases exists_reads typed hi hj with ⟨offset, entry, diameters, charges, reads⟩
  have readsIn : ∀ mode, (sum.inMode mode).Reads i j offset entry diameters charges :=
    fun mode => ⟨reads.separation, reads.entry, reads.diameters, reads.charges⟩
  have terms : ∀ mode, (sum.inMode mode).term i j =
      .ok (if entry.rcutsq ≤ offset.normSq then none
        else (entry.interaction? mode offset.normSq diameters charges).map
          (·.share offset offset.normSq)) :=
    fun mode => term_eq (readsIn mode)
  have interacts := (readsIn .none).interacts_iff
  rw [credit, credit, level, terms, terms, cutoffEnergy_eq reads,
    PairEntry.interaction?_none, PairEntry.interaction?_shift, bundled.evaluate_shifted]
  by_cases beyond : entry.rcutsq ≤ offset.normSq
  · have apart : ¬(sum.inMode .none).Interacts i j := fun both =>
      not_lt.2 beyond (interacts.1 both).1
    simp [beyond, apart]
  · cases given : law.evaluate entry.params ⟨offset.normSq, entry.rcutsq, diameters, charges⟩
      false with
    | none =>
        have apart : ¬(sum.inMode .none).Interacts i j := by
          intro both
          rcases (interacts.1 both).2 with ⟨pair, found⟩
          cases given.symm.trans found
        simp [beyond, apart]
    | some pair =>
        rw [if_pos (interacts.2 ⟨not_le.1 beyond, pair, given⟩)]
        simp only [if_neg beyond, Option.map_some, if_true, Interaction.lower,
          Interaction.energy_share]
        ring

/-! ## One list -/

/-- How often a listed pair counts for a particle: once if the list is its own,
and once if it is the partner of a pair that is listed once. -/
noncomputable def sides (sum : PairSum law) (k i j : Nat) : ℝ :=
  (if sum.storage = .half ∧ j = k then 1 else 0) + if i = k then 1 else 0

/-- The energy that a particle receives from a list is summed up from the sides
it has in the entries. -/
theorem energy_fromList (i k : Nat) (partners : List Nat) :
    (sum.fromList i k partners).energy =
      (partners.map fun j => sum.sides k i j * (sum.credit i j).energy).sum := by
  induction partners with
  | nil =>
      rw [fromList_nil, Contribution.energy_zero, List.map_nil, List.sum_nil]
  | cons first rest inductionHypothesis =>
      rw [fromList_cons, Contribution.energy_add, inductionHypothesis, List.map_cons,
        List.sum_cons]
      congr 1
      rw [Contribution.energy_add, returned, sides, add_mul]
      congr 1
      · split <;> simp [Contribution.reaction]
      · split <;> simp

/-! ## All lists -/

variable {neighbors : Nat → Except Fault (Array Nat)} {result shifted : Accumulators ℝ}

/-- The sum of a value over the listed pairs, weighted by the sides a particle
has in them. -/
noncomputable def overSides (sum : PairSum law) (neighbors : Nat → Except Fault (Array Nat))
    (k : Nat) (value : Nat → Nat → ℝ) : ℝ :=
  ∑ i ∈ Finset.range sum.system.size,
    ((listed neighbors i).map fun j => sum.sides k i j * value i j).sum

theorem overSides_inMode (mode : ShiftMode) (k : Nat) (value : Nat → Nat → ℝ) :
    (sum.inMode mode).overSides neighbors k value = sum.overSides neighbors k value :=
  rfl

theorem overSides_congr (covers : Covers neighbors sum.system.size) (k : Nat)
    {value other : Nat → Nat → ℝ}
    (same : ∀ i < sum.system.size, ∀ j < sum.system.size, value i j = other i j) :
    sum.overSides neighbors k value = sum.overSides neighbors k other := by
  apply Finset.sum_congr rfl
  intro i member
  have hi : i < sum.system.size := Finset.mem_range.1 member
  congr 1
  apply List.map_congr_left
  intro j listedPartner
  rw [same i hi j (lt_of_mem_listed covers hi listedPartner)]

theorem overSides_sub_mul (k : Nat) (value other : Nat → Nat → ℝ) (factor : ℝ) :
    sum.overSides neighbors k (fun i j => value i j - factor * other i j) =
      sum.overSides neighbors k value - factor * sum.overSides neighbors k other := by
  rw [overSides, overSides, overSides, Finset.mul_sum, ← Finset.sum_sub_distrib]
  apply Finset.sum_congr rfl
  intro i _
  induction listed neighbors i with
  | nil => simp
  | cons first rest inductionHypothesis =>
      simp only [List.map_cons, List.sum_cons, inductionHypothesis]
      ring

theorem energy_received (summed : sum.total neighbors = .ok result) (k : Nat) :
    (result.received k).energy = sum.overSides neighbors k fun i j => (sum.credit i j).energy := by
  rw [received_eq_sum_fromList summed, Contribution.energy_sum, overSides]
  exact Finset.sum_congr rfl fun i _ => energy_fromList i k _

/-- Shifting takes half of the energies at the cutoff from what a particle
receives, one for every side it has in an interacting pair. -/
theorem energy_received_shift (bundled : law.Bundled) (typed : sum.WellTyped)
    (covers : Covers neighbors sum.system.size)
    (summed : (sum.inMode .none).total neighbors = .ok result)
    (summedShifted : (sum.inMode .shift).total neighbors = .ok shifted) (k : Nat) :
    (shifted.received k).energy =
      (result.received k).energy - 1 / 2 * sum.overSides neighbors k sum.level := by
  calc
    (shifted.received k).energy =
        sum.overSides neighbors k fun i j => ((sum.inMode .shift).credit i j).energy := by
      rw [energy_received summedShifted, overSides_inMode]
    _ = sum.overSides neighbors k fun i j =>
          ((sum.inMode .none).credit i j).energy - 1 / 2 * sum.level i j :=
      overSides_congr covers k fun i hi j hj => energy_credit_shift bundled typed hi hj
    _ = (result.received k).energy - 1 / 2 * sum.overSides neighbors k sum.level := by
      rw [overSides_sub_mul, energy_received summed, overSides_inMode]

end PairSum

namespace Potential

/-- Over every source and for every system, computing with shifted energies
ends as computing without does, with the same forces and virials to the last
bit.  In exact arithmetic the energy of a particle is less by half of the
energies at the cutoff, one for every side that the particle has in an
interacting listed pair. -/
theorem sameForces_and_energies_of_shift :
    (∀ (α : Type) [Scalar α] (law : PairLaw α), law.Bundled →
      ∀ (ν : Type) [NeighborSource ν α] (potential : Potential law ν),
        potential.ForcesAgree Accumulators.SameForces .none .shift) ∧
    ∀ (law : PairLaw ℝ), law.Bundled →
      ∀ (ν : Type) [NeighborSource ν ℝ] (potential plain : Potential law ν) (timestep : Nat)
        (system : ParticleSystem ℝ),
        (potential.inMode .none).computeForces timestep system = .ok (.done () plain) →
        let refreshed := potential.refreshed timestep system
        let sum := refreshed.pairSum system
        ∃ shifted, (potential.inMode .shift).computeForces timestep system =
            .ok (.done () shifted) ∧
          ∀ k < system.size, (shifted.results.received k).energy =
            (plain.results.received k).energy -
              1 / 2 * sum.overSides (NeighborSource.neighbors refreshed.source) k sum.level := by
  have agree : ∀ (α : Type) [Scalar α] (law : PairLaw α), law.Bundled →
      ∀ (ν : Type) [NeighborSource ν α] (potential : Potential law ν),
        potential.ForcesAgree Accumulators.SameForces .none .shift := by
    intro α _ law bundled ν _ potential
    apply forcesAgree_of_sums Accumulators.SameForces.refl
    intro timestep system
    exact PairSum.modesAgree_none_shift bundled.shiftsEnergiesOnly _
  refine ⟨agree, ?_⟩
  intro law bundled ν _ potential plain timestep system computed refreshed sum
  rcases (agree ℝ law bundled ν potential).exists_done computed with ⟨shifted, computedShifted, -⟩
  refine ⟨shifted, computedShifted, fun k _ => ?_⟩
  rcases computeForces_eq_done_iff.1 computed with ⟨checked, -, results, summed, rfl⟩
  rcases computeForces_eq_done_iff.1 computedShifted with
    ⟨-, -, shiftedResults, summedShifted, rfl⟩
  rw [checkSystem_inMode] at checked
  rw [computedResults_inMode] at summed summedShifted
  have typed : (sum.inMode .none).WellTyped := (checkSystem_eq_ok_iff.1 checked).1
  have covers : Covers (NeighborSource.neighbors refreshed.source) system.size :=
    (PairSum.exists_total_iff_covers typed).1 ⟨results, summed⟩
  exact PairSum.energy_received_shift bundled typed covers summed summedShifted k

open ParticleSystem (dimerAcross)

theorem sameForces_and_energies_of_shift_dimerAcross :
    (PairLaw.lennardJones : PairLaw ℝ).Bundled ∧
      ∃ plain shifted,
        ((repulsive .half).inMode .none).computeForces 0 dimerAcross = .ok (.done () plain) ∧
        ((repulsive .half).inMode .shift).computeForces 0 dimerAcross = .ok (.done () shifted) ∧
        plain.results.SameForces shifted.results ∧
        (shifted.results.received 0).energy = (plain.results.received 0).energy -
          1 / 2 * (((repulsive .half).refreshed 0 dimerAcross).pairSum dimerAcross).overSides
            (NeighborSource.neighbors ((repulsive .half).refreshed 0 dimerAcross).source) 0
            (((repulsive .half).refreshed 0 dimerAcross).pairSum dimerAcross).level := by
  rcases exists_done_repulsive .half with ⟨plain, computed⟩
  rcases sameForces_and_energies_of_shift with ⟨agree, energies⟩
  rcases (agree ℝ _ .lennardJones _ (repulsive .half)).exists_done computed with
    ⟨shifted, computedShifted, same⟩
  rcases energies _ .lennardJones _ (repulsive .half) plain 0 dimerAcross computed with
    ⟨other, computedOther, lowered⟩
  cases computedShifted.symm.trans computedOther
  exact ⟨.lennardJones, plain, shifted, computed, computedShifted, same,
    lowered 0 (Nat.succ_pos 1)⟩

end Potential

end Nonbonded
