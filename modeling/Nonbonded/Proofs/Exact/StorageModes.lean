import Nonbonded.Proofs.Exact.Accumulation
import Nonbonded.Proofs.Exact.Guard
import Nonbonded.Proofs.Exact.NearestImage
import Nonbonded.Proofs.NeighborList.Entries
import Nonbonded.Proofs.ParticleSystem.Arrays
import Nonbonded.Proofs.Potential.Safety

/-!
# Half and full lists

A pair may be listed once, with its reaction credited to the partner, or from
both sides, with each side evaluated on its own.  In exact arithmetic the two
give the same results for a symmetric law, whatever the order of the entries,
and also with repeated entries or particles on their own lists.

The lists that a scan leaves in the two modes are an instance.
-/

namespace Nonbonded

/-- One source lists every pair as often as another one lists it from either
side. -/
def ListsTwice (twice once : Nat → Except Fault (Array Nat)) (size : Nat) : Prop :=
  ∀ i < size, ∀ j < size,
    (listed twice i).count j = (listed once i).count j + (listed once j).count i

theorem PairSum.multiplicity_of_listsTwice {twice once : Nat → Except Fault (Array Nat)}
    {size i j : Nat} (lists : ListsTwice twice once size) (hi : i < size) (hj : j < size) :
    multiplicity .full twice i j = multiplicity .half once i j := by
  simp only [multiplicity, reduceCtorEq, if_false, if_true, add_zero]
  exact lists i hi j hj

/-- Contributions do not depend on how pairs are stored. -/
theorem PairSum.credit_congr {law : PairLaw ℝ} {left right : PairSum law}
    (system : left.system = right.system) (table : left.table = right.table)
    (shiftMode : left.shiftMode = right.shiftMode) (i j : Nat) :
    left.credit i j = right.credit i j := by
  cases left
  cases right
  cases system
  cases table
  cases shiftMode
  rfl

namespace NeighborList

/-- A rebuild lists every pair of different particles once in all when it is
near, tested from the smaller index, in either mode. -/
theorem multiplicity_build (list : NeighborList ℝ) (timestep : Nat) (system : ParticleSystem ℝ)
    {i j : Nat} (hi : i < system.size) (hj : j < system.size) :
    PairSum.multiplicity list.mode (list.build timestep system).neighbors i j =
      if i ≠ j ∧ nearAt list.reach system (min i j) (max i j) = true then 1 else 0 := by
  rw [PairSum.multiplicity, listed_build list timestep system hi,
    listed_build list timestep system hj, count_partnersOf hj, count_partnersOf hi]
  rcases Nat.lt_trichotomy i j with below | rfl | above
  · rw [enters_of_lt below, enters_of_gt below, Nat.min_eq_left below.le,
      Nat.max_eq_right below.le]
    cases list.mode <;> simp [below.ne]
  · simp [enters_self]
  · rw [enters_of_gt above, enters_of_lt above, Nat.min_eq_right above.le,
      Nat.max_eq_left above.le]
    cases list.mode <;> simp [above.ne']

/-- Rebuilt with one reach, a full list lists twice what a half list lists
once. -/
theorem listsTwice_build {twice once : NeighborList ℝ} (full : twice.mode = .full)
    (half : once.mode = .half) (reach : twice.reach = once.reach) (timestep : Nat)
    (system : ParticleSystem ℝ) :
    ListsTwice (twice.build timestep system).neighbors (once.build timestep system).neighbors
      system.size := by
  intro i hi j hj
  have same : PairSum.multiplicity .full (twice.build timestep system).neighbors i j =
      PairSum.multiplicity .half (once.build timestep system).neighbors i j := by
    rw [← full, ← half, multiplicity_build twice timestep system hi hj,
      multiplicity_build once timestep system hi hj, reach]
  simpa [PairSum.multiplicity] using same

end NeighborList

namespace Potential

theorem source_refreshed_of_stale {law : PairLaw ℝ} {potential : Potential law (NeighborList ℝ)}
    {timestep : Nat} {system : ParticleSystem ℝ}
    (stale : potential.source.isCurrent timestep system = false) :
    (potential.refreshed timestep system).source = potential.source.build timestep system := by
  change NeighborList.refresh potential.source timestep system = _
  rw [NeighborList.refresh, stale]
  rfl

/-- Lists that have to be rebuilt cover the system after the refresh. -/
theorem covers_refreshed_of_stale {law : PairLaw ℝ} {potential : Potential law (NeighborList ℝ)}
    {timestep : Nat} {system : ParticleSystem ℝ}
    (stale : potential.source.isCurrent timestep system = false) :
    Covers (NeighborSource.neighbors (potential.refreshed timestep system).source)
      system.size := by
  rw [source_refreshed_of_stale stale]
  exact NeighborList.covers_build potential.source timestep system

variable {law : PairLaw ℝ} {ν μ : Type} [NeighborSource ν ℝ] [NeighborSource μ ℝ]

/-- What a particle receives from a computation of forces that is done. -/
theorem received_of_computeForces (symmetric : law.Symmetric) {potential final : Potential law ν}
    {timestep : Nat} {system : ParticleSystem ℝ}
    (covers : Covers (NeighborSource.neighbors (potential.refreshed timestep system).source)
      system.size)
    (computed : potential.computeForces timestep system = .ok (.done () final)) :
    final.results.size = system.size ∧ ∀ k < system.size,
      final.results.received k = ∑ j ∈ Finset.range system.size,
        PairSum.multiplicity (NeighborSource.mode (potential.refreshed timestep system).source)
            (NeighborSource.neighbors (potential.refreshed timestep system).source) k j •
          ((potential.refreshed timestep system).pairSum system).credit k j := by
  obtain ⟨checked, -, results, summed, rfl⟩ := computeForces_eq_done_iff.1 computed
  have fit : ((potential.refreshed timestep system).pairSum system).CutoffsFit :=
    cutoffsFit_of_checked checked
  have typed : ((potential.refreshed timestep system).pairSum system).WellTyped :=
    (checkSystem_eq_ok_iff.1 checked).1
  refine ⟨PairSum.size_of_total summed, fun k inRange => ?_⟩
  exact PairSum.received_total_of_symmetric symmetric fit typed covers summed inRange

/-- Two potentials of a symmetric law with the same settings leave the same
results, when one lists pairs once and the other lists the same pairs from both
sides. -/
theorem results_eq_of_listsTwice (symmetric : law.Symmetric) {once onceFinal : Potential law ν}
    {twice twiceFinal : Potential law μ} (table : once.table = twice.table)
    (shiftMode : once.shiftMode = twice.shiftMode) {first second : Nat} {system : ParticleSystem ℝ}
    (half : NeighborSource.mode (once.refreshed first system).source = .half)
    (full : NeighborSource.mode (twice.refreshed second system).source = .full)
    (coversOnce : Covers (NeighborSource.neighbors (once.refreshed first system).source)
      system.size)
    (coversTwice : Covers (NeighborSource.neighbors (twice.refreshed second system).source)
      system.size)
    (lists : ListsTwice (NeighborSource.neighbors (twice.refreshed second system).source)
      (NeighborSource.neighbors (once.refreshed first system).source) system.size)
    (computedOnce : once.computeForces first system = .ok (.done () onceFinal))
    (computedTwice : twice.computeForces second system = .ok (.done () twiceFinal)) :
    onceFinal.results = twiceFinal.results := by
  obtain ⟨sizeOnce, receivedOnce⟩ := received_of_computeForces symmetric coversOnce computedOnce
  obtain ⟨sizeTwice, receivedTwice⟩ :=
    received_of_computeForces symmetric coversTwice computedTwice
  apply Accumulators.eq_of_received (sizeOnce.trans sizeTwice.symm)
  intro k inRange
  rw [sizeOnce] at inRange
  rw [receivedOnce k inRange, receivedTwice k inRange, half, full]
  apply Finset.sum_congr rfl
  intro j member
  rw [PairSum.multiplicity_of_listsTwice lists inRange (Finset.mem_range.1 member)]
  congr 1
  apply PairSum.credit_congr
  · rfl
  · exact table
  · exact shiftMode

end Potential

/-! ## A dimer across the boundary -/

/-- Two particles nine tenths of a box length apart, and so near each other
through the boundary. -/
noncomputable def ParticleSystem.dimerAcross : ParticleSystem ℝ :=
  dimer realCube 9

namespace Potential

open ParticleSystem (realCube lengths_realCube dimerAcross)

/-- Particles of unit size repel each other within a distance of two. -/
def unitRepulsion {α : Type} [Scalar α] (mode : StorageMode) :
    Potential (PairLaw.lennardJones : PairLaw α) (NeighborList α) where
  source := .create 2 1 mode
  shiftMode := .none
  table :=
    { typeCount := 1
      values := #[⟨4, 0, ⟨1, 1, 0⟩⟩]
      fits := rfl }
  results := .empty
  computedFor := none

/-- The same in exact arithmetic. -/
noncomputable def repulsive (mode : StorageMode) :
    Potential (PairLaw.lennardJones : PairLaw ℝ) (NeighborList ℝ) :=
  unitRepulsion mode

theorem maxCutoff_repulsive (mode : StorageMode) : (repulsive mode).maxCutoff = 2 := by
  have largest : (repulsive mode).largestCutoffSq = 4 := by
    simp only [largestCutoffSq, repulsive, unitRepulsion, List.map_toArray, List.map_cons,
      List.map_nil, List.foldl_toArray, List.foldl_cons, List.foldl_nil, Scalar.max_real]
    change max ((0 : ℕ) : ℝ) ((4 : ℕ) : ℝ) = 4
    norm_num
  change Real.sqrt (repulsive mode).largestCutoffSq = 2
  rw [largest, Real.sqrt_eq_iff_mul_self_eq (by norm_num) (by norm_num)]
  norm_num

/-- The cube holds the cutoff, wherever the particles are. -/
theorem checkSystem_repulsive (mode : StorageMode) {system : ParticleSystem ℝ}
    (oneType : system.typeCount = 1) (box : system.box = realCube) :
    (repulsive mode).checkSystem system = .ok () := by
  apply checkSystem_eq_ok_iff.2
  constructor
  · rw [oneType]
    exact le_rfl
  · rw [maxCutoff_repulsive, Box.minHalfLength, Scalar.half_real, box]
    change ¬1 / 2 * realCube.lengths.get _ < 2
    rw [lengths_realCube]
    norm_num

theorem exists_done_repulsive (mode : StorageMode) :
    ∃ final, (repulsive mode).computeForces 0 dimerAcross = .ok (.done () final) :=
  exists_done_of_checked (NeighborList.inRange_create _ _ mode)
    (checkSystem_repulsive mode rfl rfl) 0

/-- The lists of a dimer across the boundary, once and from both sides. -/
theorem results_eq_dimerAcross :
    ∃ onceFinal twiceFinal,
      (repulsive .half).computeForces 0 dimerAcross = .ok (.done () onceFinal) ∧
      (repulsive .full).computeForces 0 dimerAcross = .ok (.done () twiceFinal) ∧
      onceFinal.results = twiceFinal.results := by
  have sourceOnce : ((repulsive .half).refreshed 0 dimerAcross).source = _ :=
    source_refreshed_of_stale rfl
  have sourceTwice : ((repulsive .full).refreshed 0 dimerAcross).source = _ :=
    source_refreshed_of_stale rfl
  have table : (repulsive .half).table = (repulsive .full).table := rfl
  have shiftMode : (repulsive .half).shiftMode = (repulsive .full).shiftMode := rfl
  have half : NeighborSource.mode ((repulsive .half).refreshed 0 dimerAcross).source = .half := by
    rw [sourceOnce]
    rfl
  have full : NeighborSource.mode ((repulsive .full).refreshed 0 dimerAcross).source = .full := by
    rw [sourceTwice]
    rfl
  have coversOnce : Covers
      (NeighborSource.neighbors ((repulsive .half).refreshed 0 dimerAcross).source)
      dimerAcross.size := by
    rw [sourceOnce]
    exact NeighborList.covers_build _ 0 dimerAcross
  have coversTwice : Covers
      (NeighborSource.neighbors ((repulsive .full).refreshed 0 dimerAcross).source)
      dimerAcross.size := by
    rw [sourceTwice]
    exact NeighborList.covers_build _ 0 dimerAcross
  have lists : ListsTwice
      (NeighborSource.neighbors ((repulsive .full).refreshed 0 dimerAcross).source)
      (NeighborSource.neighbors ((repulsive .half).refreshed 0 dimerAcross).source)
      dimerAcross.size := by
    have reach : (repulsive .full).source.reach = (repulsive .half).source.reach := rfl
    rw [sourceOnce, sourceTwice]
    exact NeighborList.listsTwice_build rfl rfl reach 0 dimerAcross
  obtain ⟨onceFinal, computedOnce⟩ := exists_done_repulsive .half
  obtain ⟨twiceFinal, computedTwice⟩ := exists_done_repulsive .full
  exact ⟨onceFinal, twiceFinal, computedOnce, computedTwice,
    results_eq_of_listsTwice PairLaw.Bundled.lennardJones.symmetric table shiftMode half full
      coversOnce coversTwice lists computedOnce computedTwice⟩

end Potential

end Nonbonded
