import Nonbonded.Proofs.Exact.LatticeSum
import Nonbonded.Proofs.Exact.Schedules

/-!
# Totals over listed pairs

When pairs are listed once, a pair gives one share to the particle whose list
it is on and the reaction to the partner.  The two forces cancel, and the
energies and virials of the two add up to those of the pair.  So the totals
over all particles are sums over the entries of the lists, whatever these are:
an entry may be repeated or name the particle itself, and the law need not be
symmetric.

The entries that count are the encounters: the pair is within its cutoff and
the law gives it an interaction.
-/

namespace Nonbonded

/-! ## Totals of a buffer -/

theorem Vec3.sum_real (vectors : List (Vec3 ℝ)) : Vec3.sum vectors = vectors.sum :=
  List.sum_eq_foldl.symm

namespace Contribution

/-- The force. -/
noncomputable def forcePart : Contribution ℝ →+ Vec3 ℝ where
  toFun c := c.force
  map_zero' := rfl
  map_add' _ _ := rfl

/-- A share and its reaction exert no force together. -/
theorem force_add_reaction (c : Contribution ℝ) : (c + c.reaction).force = 0 := by
  apply Vec3.eq_of_get
  intro axis
  simp [reaction]

theorem energy_add_reaction (c : Contribution ℝ) : (c + c.reaction).energy = 2 * c.energy :=
  (two_mul c.energy).symm

theorem virial_add_reaction (c : Contribution ℝ) : (c + c.reaction).virial = 2 * c.virial :=
  (two_mul c.virial).symm

end Contribution

namespace Accumulators

/-- What all particles have received together. -/
noncomputable def receivedByAll (acc : Accumulators ℝ) : Contribution ℝ :=
  acc.entries.toList.sum

theorem netForce_eq (acc : Accumulators ℝ) : acc.netForce = acc.receivedByAll.force := by
  rw [netForce, Vec3.sum_real, forces, Array.toList_map]
  exact (map_list_sum Contribution.forcePart acc.entries.toList).symm

theorem totalEnergy_eq (acc : Accumulators ℝ) : acc.totalEnergy = acc.receivedByAll.energy := by
  rw [totalEnergy, Scalar.sum_real, energies, Array.toList_map]
  exact (map_list_sum Contribution.energyPart acc.entries.toList).symm

theorem totalVirial_eq (acc : Accumulators ℝ) : acc.totalVirial = acc.receivedByAll.virial := by
  rw [totalVirial, Scalar.sum_real, virials, Array.toList_map]
  exact (map_list_sum Contribution.virialPart acc.entries.toList).symm

theorem receivedByAll_eq_sum (acc : Accumulators ℝ) :
    acc.receivedByAll = ∑ k ∈ Finset.range acc.size, acc.received k := by
  rw [receivedByAll, ← Fin.sum_univ_getElem, Finset.sum_range]
  rcases acc with ⟨entries⟩
  change ∑ i : Fin entries.toList.length, entries.toList[i] =
    ∑ i : Fin entries.size, received ⟨entries⟩ i
  apply Finset.sum_congr rfl
  intro i _
  simp [received]

end Accumulators

namespace PairSum

variable {law : PairLaw ℝ} {sum : PairSum law} {i j : Nat}

/-! ## What a list gives to all particles -/

theorem fromList_nil (i k : Nat) : sum.fromList i k [] = 0 := by
  simp [fromList]

theorem fromList_cons (i k j : Nat) (rest : List Nat) :
    sum.fromList i k (j :: rest) =
      (sum.returned i k j + if i = k then sum.credit i j else 0) + sum.fromList i k rest := by
  by_cases own : i = k
  · simp only [fromList, if_pos own, List.map_cons, List.sum_cons]
    exact add_add_add_comm _ _ _ _
  · simp only [fromList, if_neg own, add_zero, List.map_cons, List.sum_cons]

/-- A list gives every partner's share and its reaction, when pairs are listed
once. -/
theorem sum_fromList {size : Nat} {partners : List Nat} (half : sum.storage = .half)
    (hi : i < size) (inRange : ∀ j ∈ partners, j < size) :
    ∑ k ∈ Finset.range size, sum.fromList i k partners =
      (partners.map fun j => sum.credit i j + (sum.credit i j).reaction).sum := by
  induction partners with
  | nil => simp only [fromList_nil, Finset.sum_const_zero, List.map_nil, List.sum_nil]
  | cons first rest inductionHypothesis =>
      have firstLt : first < size := inRange first List.mem_cons_self
      have toPartner : ∑ k ∈ Finset.range size, sum.returned i k first =
          (sum.credit i first).reaction := by
        simp only [returned, half, true_and]
        rw [Finset.sum_ite_eq, if_pos (Finset.mem_range.2 firstLt)]
      have toSelf : (∑ k ∈ Finset.range size, if i = k then sum.credit i first else 0) =
          sum.credit i first := by
        rw [Finset.sum_ite_eq, if_pos (Finset.mem_range.2 hi)]
      simp only [fromList_cons, Finset.sum_add_distrib, toPartner, toSelf]
      rw [inductionHypothesis fun j member => inRange j (List.mem_cons_of_mem first member),
        List.map_cons, List.sum_cons, add_comm (sum.credit i first)]

/-! ## Encounters -/

/-- Two particles that interact: their squared separation, and what the law and
the shift mode make of it. -/
structure Encounter where
  rsq : ℝ
  interaction : Interaction ℝ

open Classical in
/-- The encounter of a particle with a listed partner; none at or beyond the
cutoff, or when the law is switched off. -/
noncomputable def encounter? (sum : PairSum law) (i j : Nat) : Option Encounter := do
  let offset ← (sum.separation i j).toOption
  let pair? ← (sum.evaluate i j offset.normSq).toOption
  if sum.WithinCutoff i j offset.normSq then pair?.map (⟨offset.normSq, ·⟩) else none

/-- The encounters of all particles with the partners on their lists, in the
order of the lists. -/
noncomputable def encounters (sum : PairSum law) (neighbors : Nat → Except Fault (Array Nat)) :
    List Encounter :=
  (List.range sum.system.size).flatMap fun i => (listed neighbors i).filterMap (sum.encounter? i)

/-- A partner contributes its share in the encounter, if there is one. -/
theorem exists_offset_credit (typed : sum.WellTyped) (hi : i < sum.system.size)
    (hj : j < sum.system.size) :
    ∃ offset, sum.credit i j =
      (sum.encounter? i j).elim 0 fun met => met.interaction.share offset met.rsq := by
  rcases exists_reads typed hi hj with ⟨offset, entry, diameters, charges, reads⟩
  refine ⟨offset, ?_⟩
  rw [credit, term_eq reads, encounter?, reads.separation]
  by_cases beyond : entry.rcutsq ≤ offset.normSq
  · simp [beyond, not_lt.2 beyond, withinCutoff_iff reads, evaluate_eq reads, Except.toOption]
  · cases interaction : entry.interaction? sum.shiftMode offset.normSq diameters charges <;>
      simp [beyond, not_le.1 beyond, withinCutoff_iff reads, evaluate_eq reads, Except.toOption,
        interaction]

/-! ## Totals of a sum -/

theorem sum_filterMap {M : Type} [AddCommMonoid M] (met? : Nat → Option Encounter)
    (value : Encounter → M) (partners : List Nat) :
    ((partners.filterMap met?).map value).sum =
      (partners.map fun j => (met? j).elim 0 value).sum := by
  induction partners with
  | nil => rfl
  | cons first rest inductionHypothesis =>
      cases met : met? first with
      | none =>
          rw [List.filterMap_cons_none met, inductionHypothesis, List.map_cons, List.sum_cons, met,
            Option.elim_none, zero_add]
      | some encounter =>
          rw [List.filterMap_cons_some met, List.map_cons, List.sum_cons, inductionHypothesis,
            List.map_cons, List.sum_cons, met, Option.elim_some]

variable {neighbors : Nat → Except Fault (Array Nat)} {result : Accumulators ℝ}

/-- Together the particles have received every listed share and its
reaction. -/
theorem receivedByAll_total (half : sum.storage = .half)
    (covers : Covers neighbors sum.system.size) (summed : sum.total neighbors = .ok result) :
    result.receivedByAll = ∑ i ∈ Finset.range sum.system.size,
      ((listed neighbors i).map fun j => sum.credit i j + (sum.credit i j).reaction).sum := by
  simp only [Accumulators.receivedByAll_eq_sum, size_of_total summed,
    received_eq_sum_fromList summed]
  rw [Finset.sum_comm]
  apply Finset.sum_congr rfl
  intro i member
  have hi : i < sum.system.size := Finset.mem_range.1 member
  exact sum_fromList half hi fun j => lt_of_mem_listed covers hi

/-- A part of what all particles have received is a sum over encounters, when
it is one for each entry. -/
theorem part_receivedByAll {M : Type} [AddCommMonoid M] (part : Contribution ℝ →+ M)
    (value : Encounter → M) (half : sum.storage = .half)
    (covers : Covers neighbors sum.system.size) (summed : sum.total neighbors = .ok result)
    (entrywise : ∀ i < sum.system.size, ∀ j < sum.system.size,
      part (sum.credit i j + (sum.credit i j).reaction) = (sum.encounter? i j).elim 0 value) :
    part result.receivedByAll = ((sum.encounters neighbors).map value).sum := by
  have byParticle : ((sum.encounters neighbors).map value).sum =
      ∑ i ∈ Finset.range sum.system.size,
        ((listed neighbors i).map fun j => (sum.encounter? i j).elim 0 value).sum := by
    rw [encounters, List.map_flatMap, List.flatMap, List.sum_flatten, List.map_map]
    simp only [Function.comp_def, sum_filterMap]
    rfl
  rw [receivedByAll_total half covers summed, byParticle, map_sum]
  apply Finset.sum_congr rfl
  intro i member
  rw [map_list_sum, List.map_map]
  congr 1
  apply List.map_congr_left
  intro j listedPartner
  have hi : i < sum.system.size := Finset.mem_range.1 member
  exact entrywise i hi j (lt_of_mem_listed covers hi listedPartner)

/-- The net force of a buffer vanishes, and its total energy and virial are
sums over the encounters on the lists. -/
structure IsPairTotal (sum : PairSum law) (neighbors : Nat → Except Fault (Array Nat))
    (acc : Accumulators ℝ) : Prop where
  netForce : acc.netForce = 0
  totalEnergy : acc.totalEnergy =
    ((sum.encounters neighbors).map fun met => met.interaction.energy).sum
  totalVirial : acc.totalVirial =
    ((sum.encounters neighbors).map fun met =>
      met.rsq * met.interaction.forceOverDistance / 3).sum

theorem isPairTotal_total (half : sum.storage = .half) (typed : sum.WellTyped)
    (covers : Covers neighbors sum.system.size) (summed : sum.total neighbors = .ok result) :
    sum.IsPairTotal neighbors result := by
  constructor
  · rw [Accumulators.netForce_eq]
    have vanishes := part_receivedByAll Contribution.forcePart (fun _ => 0) half covers summed
    simp only [List.map_const', List.sum_replicate, smul_zero] at vanishes
    apply vanishes
    intro i hi j hj
    cases sum.encounter? i j <;> exact Contribution.force_add_reaction _
  · rw [Accumulators.totalEnergy_eq]
    apply part_receivedByAll Contribution.energyPart _ half covers summed
    intro i hi j hj
    rcases exists_offset_credit typed hi hj with ⟨offset, contributed⟩
    change (sum.credit i j + (sum.credit i j).reaction).energy = _
    rw [Contribution.energy_add_reaction, contributed]
    cases sum.encounter? i j with
    | none => simp
    | some met =>
        simp only [Option.elim_some, Interaction.energy_share]
        ring
  · rw [Accumulators.totalVirial_eq]
    apply part_receivedByAll Contribution.virialPart _ half covers summed
    intro i hi j hj
    rcases exists_offset_credit typed hi hj with ⟨offset, contributed⟩
    change (sum.credit i j + (sum.credit i j).reaction).virial = _
    rw [Contribution.virial_add_reaction, contributed]
    cases sum.encounter? i j with
    | none => simp
    | some met =>
        simp only [Option.elim_some, Interaction.virial_share]
        ring

end PairSum

namespace Potential

variable {law : PairLaw ℝ} {ν : Type} [NeighborSource ν ℝ]

/-- A computation of forces from pairs that are listed once leaves no net
force, and the energies and virials of the encounters on the lists.  The same
buffer is left when the sum is shared out between workers. -/
theorem isPairTotal_of_computeForces {potential final : Potential law ν} {timestep : Nat}
    {system : ParticleSystem ℝ}
    (half : NeighborSource.mode (potential.refreshed timestep system).source = .half)
    (covers : Covers (NeighborSource.neighbors (potential.refreshed timestep system).source)
      system.size)
    (computed : potential.computeForces timestep system = .ok (.done () final)) :
    ((potential.refreshed timestep system).pairSum system).IsPairTotal
        (NeighborSource.neighbors (potential.refreshed timestep system).source) final.results ∧
      ∀ schedule : Schedule, schedule.particles.Perm (List.range system.size) →
        ((potential.refreshed timestep system).pairSum system).sharedTotal
          (NeighborSource.neighbors (potential.refreshed timestep system).source) schedule =
            .ok final.results := by
  rcases computeForces_eq_done_iff.1 computed with ⟨checked, -, results, summed, rfl⟩
  have typed : ((potential.refreshed timestep system).pairSum system).WellTyped :=
    (checkSystem_eq_ok_iff.1 checked).1
  constructor
  · exact PairSum.isPairTotal_total half typed covers summed
  · intro schedule once
    exact PairSum.sharedTotal_eq_total typed covers once summed

open ParticleSystem (dimerAcross)

theorem isPairTotal_dimerAcross :
    ∃ final, (repulsive .half).computeForces 0 dimerAcross = .ok (.done () final) ∧
      (((repulsive .half).refreshed 0 dimerAcross).pairSum dimerAcross).IsPairTotal
        (NeighborSource.neighbors ((repulsive .half).refreshed 0 dimerAcross).source)
        final.results := by
  have source : ((repulsive .half).refreshed 0 dimerAcross).source = _ :=
    source_refreshed_of_stale rfl
  have half : NeighborSource.mode ((repulsive .half).refreshed 0 dimerAcross).source = .half := by
    rw [source]
    rfl
  have covers : Covers
      (NeighborSource.neighbors ((repulsive .half).refreshed 0 dimerAcross).source)
      dimerAcross.size := by
    rw [source]
    exact NeighborList.covers_build _ 0 dimerAcross
  rcases exists_done_repulsive .half with ⟨final, computed⟩
  exact ⟨final, computed, (isPairTotal_of_computeForces half covers computed).1⟩

end Potential

end Nonbonded
