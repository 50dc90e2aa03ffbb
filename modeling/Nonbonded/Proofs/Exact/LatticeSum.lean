import Nonbonded.Proofs.Exact.StorageModes
import Nonbonded.Proofs.ParticleSystem.Arrays

/-!
# Forces as lattice sums

The textbook meaning of a computation: every particle receives what all images
of all other particles within the cutoff contribute, each image once.

A computation that rebuilds its list computes this, in either storage mode, for
positions within three half box lengths of each other on every axis.  A
displacement has at most one image within a cutoff that fits the box, and
wrapping finds it.  The list loses no such pair as long as its reach is at
least the largest cutoff.
-/

namespace Nonbonded

namespace ParticleSystem

variable {α : Type} [Scalar α]

/-- The displacement of a particle from another as positions are given, before
any wrapping. -/
def displacement (system : ParticleSystem α) (i j : Fin system.size) : Vec3 α :=
  system.placeOf i - system.placeOf j

end ParticleSystem

theorem PairSum.separation_displacement {α : Type} [Scalar α] {law : PairLaw α} (sum : PairSum law)
    (i j : Fin sum.system.size) :
    sum.separation i j = .ok (sum.system.box.minimumImage (sum.system.displacement i j)) := by
  rw [separation, sum.system.position_eq_placeOf i, sum.system.position_eq_placeOf j]
  rfl

theorem Interaction.force_share (pair : Interaction ℝ) (offset : Vec3 ℝ) (rsq : ℝ) (axis : Axis) :
    (pair.share offset rsq).force.get axis = pair.forceOverDistance * offset.get axis := by
  rw [share, Vec3.get_scale, mul_comm]

theorem Interaction.energy_share (pair : Interaction ℝ) (offset : Vec3 ℝ) (rsq : ℝ) :
    (pair.share offset rsq).energy = pair.energy / 2 := by
  rw [share, Scalar.half_real]
  ring

theorem Interaction.virial_share (pair : Interaction ℝ) (offset : Vec3 ℝ) (rsq : ℝ) :
    (pair.share offset rsq).virial = rsq * pair.forceOverDistance / 6 := by
  change ((1 : ℕ) : ℝ) / ((6 : ℕ) : ℝ) * rsq * pair.forceOverDistance = _
  push_cast
  ring

namespace PairSum

variable {law : PairLaw ℝ}

/-- The interaction of two particles at a squared distance below their
cutoff. -/
noncomputable def evaluate (sum : PairSum law) (i j : Nat) (rsq : ℝ) :
    Except Fault (Option (Interaction ℝ)) := do
  let entry ← sum.entry i j
  let diameters ← both law.needsDiameter sum.system.diameter i j
  let charges ← both law.needsCharge sum.system.charge i j
  return entry.interaction? sum.shiftMode rsq diameters charges

/-- What the law and the shift mode make of two particles at a squared
distance; no force and no energy when the law is switched off. -/
noncomputable def interactionAt (sum : PairSum law) (i j : Nat) (rsq : ℝ) : Interaction ℝ :=
  match sum.evaluate i j rsq with
  | .ok (some pair) => pair
  | _ => ⟨0, 0⟩

/-- Whether a squared distance is below the cutoff of two particles. -/
def WithinCutoff (sum : PairSum law) (i j : Nat) (rsq : ℝ) : Prop :=
  ∃ entry, sum.entry i j = .ok entry ∧ rsq < entry.rcutsq

/-- The image of a displacement between two particles in a cell of the
lattice. -/
noncomputable def imageOf (sum : PairSum law) (i j : Fin sum.system.size) (cell : Axis → ℤ) :
    Vec3 ℝ :=
  sum.system.box.image (sum.system.displacement i j) cell

variable {sum : PairSum law}

theorem share_noInteraction (offset : Vec3 ℝ) (rsq : ℝ) :
    (⟨0, 0⟩ : Interaction ℝ).share offset rsq = 0 := by
  apply Contribution.ext
  · apply Vec3.eq_of_get
    intro axis
    simp [Interaction.share]
  · simp [Interaction.share]
  · simp [Interaction.share]

theorem evaluate_eq {i j : Nat} {offset : Vec3 ℝ} {entry : PairEntry law}
    {diameters charges : Option (ℝ × ℝ)} (reads : sum.Reads i j offset entry diameters charges)
    (rsq : ℝ) :
    sum.evaluate i j rsq = .ok (entry.interaction? sum.shiftMode rsq diameters charges) := by
  rw [evaluate, reads.entry, reads.diameters, reads.charges]
  rfl

theorem withinCutoff_iff {i j : Nat} {offset : Vec3 ℝ} {entry : PairEntry law}
    {diameters charges : Option (ℝ × ℝ)} (reads : sum.Reads i j offset entry diameters charges)
    {rsq : ℝ} : sum.WithinCutoff i j rsq ↔ rsq < entry.rcutsq := by
  constructor
  · rintro ⟨same, found, close⟩
    cases found.symm.trans reads.entry
    exact close
  · intro close
    exact ⟨entry, reads.entry, close⟩

/-- What the law makes of a pair, once everything it is computed from is
read. -/
theorem interactionAt_eq {i j : Nat} {offset : Vec3 ℝ} {entry : PairEntry law}
    {diameters charges : Option (ℝ × ℝ)} (reads : sum.Reads i j offset entry diameters charges)
    (rsq : ℝ) :
    sum.interactionAt i j rsq =
      (entry.interaction? sum.shiftMode rsq diameters charges).getD ⟨0, 0⟩ := by
  rw [interactionAt, evaluate_eq reads]
  cases entry.interaction? sum.shiftMode rsq diameters charges <;> rfl

/-- What a partner contributes is its share in the interaction with its nearest
image, when that is within the cutoff. -/
theorem credit_of_withinCutoff (typed : sum.WellTyped) {i j : Fin sum.system.size}
    {offset : Vec3 ℝ} (separated : sum.separation i j = .ok offset)
    (within : sum.WithinCutoff i j offset.normSq) :
    sum.credit i j = (sum.interactionAt i j offset.normSq).share offset offset.normSq := by
  obtain ⟨read, entry, diameters, charges, reads⟩ := exists_reads typed i.isLt j.isLt
  cases separated.symm.trans reads.separation
  have close : ¬entry.rcutsq ≤ offset.normSq := not_le.2 ((withinCutoff_iff reads).1 within)
  rw [credit, term_eq reads, if_neg close, interactionAt_eq reads]
  cases entry.interaction? sum.shiftMode offset.normSq diameters charges with
  | none => exact (share_noInteraction offset offset.normSq).symm
  | some pair => rfl

theorem credit_of_not_withinCutoff (typed : sum.WellTyped) {i j : Fin sum.system.size}
    {offset : Vec3 ℝ} (separated : sum.separation i j = .ok offset)
    (beyond : ¬sum.WithinCutoff i j offset.normSq) : sum.credit i j = 0 := by
  obtain ⟨read, entry, diameters, charges, reads⟩ := exists_reads typed i.isLt j.isLt
  cases separated.symm.trans reads.separation
  rw [withinCutoff_iff reads, not_lt] at beyond
  rw [credit, term_eq reads, if_pos beyond]

/-! ## Images within the cutoff -/

/-- The nearest image of the displacement between two particles. -/
noncomputable def nearest (sum : PairSum law) (i j : Fin sum.system.size) : Vec3 ℝ :=
  sum.system.box.minimumImage (sum.system.displacement i j)

theorem imageOf_wrappedCell (i j : Fin sum.system.size) :
    sum.imageOf i j (sum.system.box.wrappedCell (sum.system.displacement i j)) = sum.nearest i j :=
  (Box.minimumImage_eq_image _ _).symm

open Classical in
/-- The partners of a particle whose nearest image is within the cutoff, each
with the cell of that image. -/
noncomputable def nearImages (sum : PairSum law) (i : Fin sum.system.size) :
    Finset (Fin sum.system.size × (Axis → ℤ)) :=
  (Finset.univ.filter fun j => j ≠ i ∧ sum.WithinCutoff i j (sum.nearest i j).normSq).image
    fun j => (j, sum.system.box.wrappedCell (sum.system.displacement i j))

/-- A partner has no image within the cutoff besides its nearest one. -/
theorem mem_nearImages (fit : sum.CutoffsFit)
    (near : ∀ i j : Fin sum.system.size, ∀ axis,
      |(sum.system.displacement i j).get axis| ≤ 3 / 2 * sum.system.box.lengths.get axis)
    {i j : Fin sum.system.size} {cell : Axis → ℤ} :
    (j, cell) ∈ sum.nearImages i ↔
      j ≠ i ∧ sum.WithinCutoff i j (sum.imageOf i j cell).normSq := by
  simp only [nearImages, Finset.mem_image, Finset.mem_filter, Finset.mem_univ, true_and,
    Prod.mk.injEq]
  constructor
  · rintro ⟨partner, ⟨different, within⟩, rfl, rfl⟩
    rw [imageOf_wrappedCell]
    exact ⟨different, within⟩
  · rintro ⟨different, entry, found, close⟩
    have same : cell = sum.system.box.wrappedCell (sum.system.displacement i j) :=
      Box.eq_wrappedCell (near i j) (inside_of_lt_cutoff fit found close)
    subst same
    rw [imageOf_wrappedCell] at close
    exact ⟨j, ⟨different, entry, found, close⟩, rfl, rfl⟩

theorem sum_nearImages (typed : sum.WellTyped) (i : Fin sum.system.size) :
    ∑ p ∈ sum.nearImages i, (sum.interactionAt i p.1 (sum.imageOf i p.1 p.2).normSq).share
        (sum.imageOf i p.1 p.2) (sum.imageOf i p.1 p.2).normSq =
      ∑ j : Fin sum.system.size, if j ≠ i then sum.credit i j else 0 := by
  rw [nearImages, Finset.sum_image fun _ _ _ _ same => congrArg Prod.fst same, Finset.sum_filter]
  apply Finset.sum_congr rfl
  intro j _
  have separated : sum.separation i j = .ok (sum.nearest i j) := separation_displacement sum i j
  simp only [imageOf_wrappedCell]
  by_cases different : j ≠ i
  · by_cases within : sum.WithinCutoff i j (sum.nearest i j).normSq
    · rw [if_pos ⟨different, within⟩, if_pos different,
        credit_of_withinCutoff typed separated within]
    · rw [if_neg fun both => within both.2, if_pos different,
        credit_of_not_withinCutoff typed separated within]
  · rw [if_neg fun both => different both.1, if_neg different]

/-- A contribution is the sum, over all images of all other particles within
the cutoff, of the force, of half of the energy, and of a sixth of the squared
distance times the force over distance.  The images are a set, so each counts
once. -/
structure IsLatticeSum (sum : PairSum law) (i : Fin sum.system.size)
    (images : Finset (Fin sum.system.size × (Axis → ℤ))) (received : Contribution ℝ) : Prop where
  mem_images : ∀ j cell, (j, cell) ∈ images ↔
    j ≠ i ∧ sum.WithinCutoff i j (sum.imageOf i j cell).normSq
  force : ∀ axis, received.force.get axis = ∑ p ∈ images,
    (sum.interactionAt i p.1 (sum.imageOf i p.1 p.2).normSq).forceOverDistance *
      (sum.imageOf i p.1 p.2).get axis
  energy : received.energy = ∑ p ∈ images,
    (sum.interactionAt i p.1 (sum.imageOf i p.1 p.2).normSq).energy / 2
  virial : received.virial = ∑ p ∈ images, (sum.imageOf i p.1 p.2).normSq *
    (sum.interactionAt i p.1 (sum.imageOf i p.1 p.2).normSq).forceOverDistance / 6

/-- What all other particles contribute to one is the lattice sum over their
nearest images. -/
theorem isLatticeSum_nearImages (fit : sum.CutoffsFit) (typed : sum.WellTyped)
    (near : ∀ i j : Fin sum.system.size, ∀ axis,
      |(sum.system.displacement i j).get axis| ≤ 3 / 2 * sum.system.box.lengths.get axis)
    (i : Fin sum.system.size) :
    sum.IsLatticeSum i (sum.nearImages i)
      (∑ j : Fin sum.system.size, if j ≠ i then sum.credit i j else 0) := by
  rw [← sum_nearImages typed i]
  constructor
  · intro j cell
    exact mem_nearImages fit near
  · intro axis
    simp only [Contribution.get_force_sum, Interaction.force_share]
  · simp only [Contribution.energy_sum, Interaction.energy_share]
  · simp only [Contribution.virial_sum, Interaction.virial_share]

/-! ## Rebuilt lists -/

/-- A list whose reach is at least every cutoff tests a pair near when it is
within the cutoff, from whichever of the two the test is made. -/
theorem nearAt_of_withinCutoff (fit : sum.CutoffsFit) {reach : ℝ}
    (reaches : ∀ entry ∈ sum.table.values, entry.rcutsq ≤ reach * reach)
    {i j : Fin sum.system.size} {offset : Vec3 ℝ} (separated : sum.separation i j = .ok offset)
    (within : sum.WithinCutoff i j offset.normSq) :
    NeighborList.nearAt reach sum.system (min (i : Nat) j) (max (i : Nat) j) = true := by
  rcases within with ⟨entry, found, close⟩
  have inReach : offset.normSq < reach * reach :=
    lt_of_lt_of_le close (reaches entry (mem_values_of_entry found))
  rcases le_total (i : Nat) j with below | above
  · rw [min_eq_left below, max_eq_right below, NeighborList.nearAt_eq separated]
    exact decide_eq_true inReach
  · rw [min_eq_right above, max_eq_left above]
    obtain ⟨reverse, separatedBack, opposite⟩ := separation_swap fit found separated
    rw [NeighborList.nearAt_eq separatedBack]
    rcases opposite with rfl | ⟨beyond, -⟩
    · rw [Vec3.normSq_neg]
      exact decide_eq_true inReach
    · exact absurd close (not_lt.2 beyond)

/-- A rebuilt list counts every other particle once, as far as contributions
go. -/
theorem multiplicity_build_nsmul_credit (fit : sum.CutoffsFit) (typed : sum.WellTyped)
    {list : NeighborList ℝ}
    (reaches : ∀ entry ∈ sum.table.values, entry.rcutsq ≤ list.reach * list.reach)
    (timestep : Nat) (i j : Fin sum.system.size) :
    multiplicity list.mode (list.build timestep sum.system).neighbors i j • sum.credit i j =
      if j ≠ i then sum.credit i j else 0 := by
  rw [NeighborList.multiplicity_build list timestep sum.system i.isLt j.isLt]
  by_cases different : j ≠ i
  · have distinct : (i : Nat) ≠ j := fun same => different (Fin.ext same.symm)
    rw [if_pos different]
    by_cases near : NeighborList.nearAt list.reach sum.system (min (i : Nat) j) (max (i : Nat) j)
    · rw [if_pos ⟨distinct, near⟩, one_nsmul]
    · have separated := separation_displacement sum i j
      have beyond : ¬sum.WithinCutoff i j (sum.nearest i j).normSq :=
        fun within => near (nearAt_of_withinCutoff fit reaches separated within)
      rw [if_neg fun both => near both.2, zero_nsmul,
        credit_of_not_withinCutoff typed separated beyond]
  · rw [if_neg different, if_neg fun both => different fun same => both.1 (by rw [same]),
      zero_nsmul]

end PairSum

namespace Potential

variable {law : PairLaw ℝ} {potential final : Potential law (NeighborList ℝ)} {timestep : Nat}
  {system : ParticleSystem ℝ}

/-- What a particle receives from a computation that rebuilds its list: what
every other particle contributes to it. -/
theorem received_of_rebuild (symmetric : law.Symmetric)
    (stale : potential.source.isCurrent timestep system = false)
    (reaches : potential.maxCutoff ≤ potential.source.reach)
    (computed : potential.computeForces timestep system = .ok (.done () final)) :
    final.results.size = system.size ∧ ∀ i : Fin system.size, final.results.received i =
      ∑ j : Fin system.size, if j ≠ i then (potential.pairSum system).credit i j else 0 := by
  have source := source_refreshed_of_stale stale
  have checked := (computeForces_eq_done_iff.1 computed).1
  have fit : (potential.pairSum system).CutoffsFit := cutoffsFit_of_checked checked
  have typed : (potential.pairSum system).WellTyped := (checkSystem_eq_ok_iff.1 checked).1
  have covers := covers_refreshed_of_stale stale
  have inReach : ∀ entry ∈ (potential.pairSum system).table.values,
      entry.rcutsq ≤ potential.source.reach * potential.source.reach :=
    rcutsq_le_mul_self reaches
  obtain ⟨size, received⟩ := received_of_computeForces symmetric covers computed
  refine ⟨size, fun i => ?_⟩
  rw [received i i.isLt, Finset.sum_range]
  apply Finset.sum_congr rfl
  intro j _
  have sameCredit : ((potential.refreshed timestep system).pairSum system).credit i j =
      (potential.pairSum system).credit i j :=
    PairSum.credit_congr rfl rfl rfl i j
  rw [source, sameCredit]
  exact PairSum.multiplicity_build_nsmul_credit fit typed inReach timestep i j

/-- A computation of forces that rebuilds its list gives every particle the
sums over all images of all other particles within the cutoff. -/
theorem computeForces_eq_lattice_sum (symmetric : law.Symmetric)
    (stale : potential.source.isCurrent timestep system = false)
    (reaches : potential.maxCutoff ≤ potential.source.reach)
    (near : ∀ i j : Fin system.size, ∀ axis,
      |(system.displacement i j).get axis| ≤ 3 / 2 * system.box.lengths.get axis)
    (computed : potential.computeForces timestep system = .ok (.done () final))
    (i : Fin system.size) :
    ∃ received, final.results.entry i = .ok received ∧
      ∃ images, (potential.pairSum system).IsLatticeSum i images received := by
  obtain ⟨size, received⟩ := received_of_rebuild symmetric stale reaches computed
  have checked := (computeForces_eq_done_iff.1 computed).1
  have fit : (potential.pairSum system).CutoffsFit := cutoffsFit_of_checked checked
  have typed : (potential.pairSum system).WellTyped := (checkSystem_eq_ok_iff.1 checked).1
  have inRange : (i : Nat) < final.results.size := by
    rw [size]
    exact i.isLt
  refine ⟨_, Accumulators.entry_of_lt inRange, (potential.pairSum system).nearImages i, ?_⟩
  rw [received i]
  exact PairSum.isLatticeSum_nearImages fit typed near i

open ParticleSystem (realCube dimer dimerAcross lengths_realCube)

theorem get_position_dimerAcross {position : Vec3 ℝ} (member : position ∈ dimerAcross.positions)
    (axis : Axis) : 0 ≤ position.get axis ∧ position.get axis ≤ 9 := by
  simp only [dimerAcross, dimer, List.mem_toArray, List.mem_cons, List.not_mem_nil,
    or_false] at member
  have origin : 0 ≤ ((0 : ℕ) : ℝ) ∧ ((0 : ℕ) : ℝ) ≤ 9 := by norm_num
  rcases member with rfl | rfl
  · fin_cases axis <;> exact origin
  · fin_cases axis
    · norm_num
    · exact origin
    · exact origin

theorem computeForces_dimerAcross :
    (PairLaw.lennardJones : PairLaw ℝ).Symmetric ∧
      (repulsive .half).source.isCurrent 0 dimerAcross = false ∧
      (repulsive .half).maxCutoff ≤ (repulsive .half).source.reach ∧
      (∀ i j : Fin dimerAcross.size, ∀ axis,
        |(dimerAcross.displacement i j).get axis| ≤ 3 / 2 * dimerAcross.box.lengths.get axis) ∧
      ∃ final, (repulsive .half).computeForces 0 dimerAcross = .ok (.done () final) ∧
        ∃ received, final.results.entry 0 = .ok received ∧
          ∃ images, ((repulsive .half).pairSum dimerAcross).IsLatticeSum ⟨0, by decide⟩ images
            received := by
  have reaches : (repulsive .half).maxCutoff ≤ (repulsive .half).source.reach := by
    rw [maxCutoff_repulsive]
    change (2 : ℝ) ≤ ((2 : ℕ) : ℝ) + ((1 : ℕ) : ℝ)
    norm_num
  have near : ∀ i j : Fin dimerAcross.size, ∀ axis,
      |(dimerAcross.displacement i j).get axis| ≤ 3 / 2 * dimerAcross.box.lengths.get axis := by
    intro i j axis
    obtain ⟨lowFirst, highFirst⟩ :=
      get_position_dimerAcross (dimerAcross.placeOf_mem_positions i) axis
    obtain ⟨lowSecond, highSecond⟩ :=
      get_position_dimerAcross (dimerAcross.placeOf_mem_positions j) axis
    have length : dimerAcross.box.lengths.get axis = 10 := lengths_realCube axis
    rw [length, ParticleSystem.displacement, Vec3.get_sub, abs_le]
    constructor <;> linarith
  obtain ⟨final, computed⟩ := exists_done_repulsive .half
  exact ⟨PairLaw.Bundled.lennardJones.symmetric, rfl, reaches, near, final, computed,
    computeForces_eq_lattice_sum PairLaw.Bundled.lennardJones.symmetric rfl reaches near computed
      ⟨0, by decide⟩⟩

end Potential

end Nonbonded
