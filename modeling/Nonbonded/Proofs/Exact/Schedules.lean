import Nonbonded.Proofs.Exact.Accumulation
import Nonbonded.Proofs.Exact.StorageModes
import Nonbonded.Proofs.PairSum.Congruence
import Nonbonded.Proofs.PairSum.Sharing
import Nonbonded.Proofs.Potential.Safety

/-!
# Shared sums in exact arithmetic

Merging adds what each particle has received, so the merged buffers of the
workers of a schedule hold what the lists of all their particles give.  In
which order workers take up particles, and in which order buffers are merged,
does not matter in exact arithmetic.  A schedule that takes up every particle
once leaves what the sum over all particles leaves.
-/

namespace Nonbonded

/-- Merging is received by every particle. -/
theorem Accumulators.received_of_merge {left right result : Accumulators ℝ}
    (merged : left.merge right = .ok result) (k : Nat) :
    result.received k = left.received k + right.received k := by
  unfold merge at merged
  split at merged
  · next sameSize =>
      cases merged
      rw [received, received, received, Array.getElem?_zipWith]
      by_cases inRange : k < left.size
      · have inLeft : k < left.entries.size := inRange
        have inRight : k < right.entries.size := by
          rw [sameSize] at inRange
          exact inRange
        simp only [Array.getElem?_eq_getElem inLeft, Array.getElem?_eq_getElem inRight,
          Option.getD_some]
      · have pastLeft : left.entries[k]? = none :=
          Array.getElem?_eq_none (Nat.not_lt.1 inRange)
        have pastRight : right.entries[k]? = none := by
          rw [sameSize] at inRange
          exact Array.getElem?_eq_none (Nat.not_lt.1 inRange)
        simp only [pastLeft, pastRight, Option.getD_none, add_zero]
  · cases merged

namespace PairSum

variable {law : PairLaw ℝ} {sum : PairSum law} {neighbors : Nat → Except Fault (Array Nat)}

/-- The merged buffers of a schedule hold what the lists of its particles
give. -/
theorem gather_exact {schedule : Schedule} {result : Accumulators ℝ}
    (gathered : sum.gather neighbors schedule = .ok result) (k : Nat) :
    result.received k =
      (schedule.particles.map fun i => sum.fromList i k (listed neighbors i)).sum := by
  induction schedule generalizing result with
  | worker particles =>
      rw [accumulateAll_exact gathered, Accumulators.received_zeroed, zero_add, Schedule.particles]
  | join left right leftHypothesis rightHypothesis =>
      rcases bind_eq_ok_iff.1 gathered with ⟨first, gatheredLeft, gathered⟩
      rcases bind_eq_ok_iff.1 gathered with ⟨second, gatheredRight, merged⟩
      rw [Accumulators.received_of_merge merged, leftHypothesis gatheredLeft,
        rightHypothesis gatheredRight, Schedule.particles, List.map_append, List.sum_append]

theorem sharedTotal_exact {schedule : Schedule} {result : Accumulators ℝ}
    (shared : sum.sharedTotal neighbors schedule = .ok result) (k : Nat) :
    result.received k =
      (schedule.particles.map fun i => sum.fromList i k (listed neighbors i)).sum := by
  rcases bind_eq_ok_iff.1 shared with ⟨gathered, found, merged⟩
  rw [Accumulators.received_of_merge merged, Accumulators.received_zeroed, zero_add,
    gather_exact found]

/-- What a schedule leaves that takes up every particle once is the sum over
all particles. -/
theorem eq_of_sharedTotal_of_total {schedule : Schedule}
    (once : schedule.particles.Perm (List.range sum.system.size)) {shared result : Accumulators ℝ}
    (found : sum.sharedTotal neighbors schedule = .ok shared)
    (summed : sum.total neighbors = .ok result) : shared = result := by
  apply Accumulators.eq_of_received ((size_of_sharedTotal found).trans (size_of_total summed).symm)
  intro k _
  rw [sharedTotal_exact found, accumulateAll_exact summed, Accumulators.received_zeroed, zero_add]
  exact (once.map _).sum_eq

/-- A schedule that takes up every particle once leaves the sum over all
particles. -/
theorem sharedTotal_eq_total (typed : sum.WellTyped) (covers : Covers neighbors sum.system.size)
    {schedule : Schedule} (once : schedule.particles.Perm (List.range sum.system.size))
    {result : Accumulators ℝ} (summed : sum.total neighbors = .ok result) :
    sum.sharedTotal neighbors schedule = .ok result := by
  have inRange : ∀ i ∈ schedule.particles, i < sum.system.size :=
    fun i member => List.mem_range.1 (once.mem_iff.1 member)
  rcases exists_sharedTotal typed covers inRange with ⟨shared, found, -⟩
  rw [found, eq_of_sharedTotal_of_total once found summed]

/-- However the particles are shared out and the buffers merged, as long as
every particle is taken up once, the shared sum leaves a buffer exactly when
the sum over all particles does, and it is the same buffer.  In particular the
particles may be cut into consecutive chunks, and the buffers of the chunks
merged along any binary tree.  When the lists name particles of the system
only, and the table has settings for all types, both sums leave one. -/
theorem sharedTotal_eq_ok_iff {schedule : Schedule}
    (once : schedule.particles.Perm (List.range sum.system.size)) :
    (∀ result, sum.sharedTotal neighbors schedule = .ok result ↔
      sum.total neighbors = .ok result) ∧
    (sum.WellTyped → Covers neighbors sum.system.size → ∃ result,
      sum.total neighbors = .ok result ∧ sum.sharedTotal neighbors schedule = .ok result) := by
  constructor
  · intro result
    constructor
    · intro found
      rcases (exists_sharedTotal_iff_total once).1 ⟨result, found⟩ with ⟨serial, summed⟩
      rw [summed, eq_of_sharedTotal_of_total once found summed]
    · intro summed
      rcases (exists_sharedTotal_iff_total once).2 ⟨result, summed⟩ with ⟨shared, found⟩
      rw [found, eq_of_sharedTotal_of_total once found summed]
  · intro typed covers
    rcases exists_total typed covers with ⟨result, summed, -⟩
    exact ⟨result, summed, sharedTotal_eq_total typed covers once summed⟩

open ParticleSystem (trimer realCube)
open Potential (repulsive)

/-- The sum over a row of three particles whose pairs are listed once. -/
noncomputable def inRow : PairSum (PairLaw.lennardJones : PairLaw ℝ) :=
  ((repulsive .half).refreshed 0 (trimer realCube 1)).pairSum (trimer realCube 1)

/-- Its lists. -/
noncomputable def listsInRow : Nat → Except Fault (Array Nat) :=
  NeighborSource.neighbors ((repulsive .half).refreshed 0 (trimer realCube 1)).source

/-- Three workers share the row; one of them has nothing to do, and the first
acts on the particles of the last. -/
theorem sharedTotal_inRow :
    let schedule : Schedule := .join (.worker [0]) (.join (.worker []) (.worker [1, 2]))
    schedule.particles.Perm (List.range inRow.system.size) ∧ inRow.WellTyped ∧
      Covers listsInRow inRow.system.size ∧ ∃ result,
        inRow.total listsInRow = .ok result ∧
        inRow.sharedTotal listsInRow schedule = .ok result := by
  intro schedule
  have once : schedule.particles.Perm (List.range inRow.system.size) := List.Perm.refl _
  have checked : (repulsive .half).checkSystem (trimer realCube 1) = .ok () :=
    Potential.checkSystem_repulsive .half rfl rfl
  rcases Potential.wellTyped_and_covers_refreshed (NeighborList.inRange_create _ _ _) checked 0
    with ⟨typed, covers⟩
  exact ⟨once, typed, covers, (sharedTotal_eq_ok_iff once).2 typed covers⟩

end PairSum

namespace Potential

variable {law : PairLaw ℝ} {left right : Potential law (NeighborList ℝ)} {timestep other : Nat}
  {first second : ParticleSystem ℝ}

/-- Two computations of forces over refreshed lists, for systems that pass the
checks, are both done with the same results when their sums come to the same.
The results are those of every way to share either sum. -/
theorem exists_results_of_alike (checked : left.checkSystem first = .ok ())
    (checkedToo : right.checkSystem second = .ok ())
    (covers : Covers (NeighborSource.neighbors (left.refreshed timestep first).source) first.size)
    (alike : PairSum.Alike ((left.refreshed timestep first).pairSum first)
      ((right.refreshed other second).pairSum second)
      (NeighborSource.neighbors (left.refreshed timestep first).source)
      (NeighborSource.neighbors (right.refreshed other second).source)) :
    ∃ results,
      left.computeForces timestep first =
        .ok (.done () { left.refreshed timestep first with results }) ∧
      right.computeForces other second =
        .ok (.done () { right.refreshed other second with results }) ∧
      ∀ schedule : Schedule, schedule.particles.Perm (List.range first.size) →
        ((left.refreshed timestep first).pairSum first).sharedTotal
            (NeighborSource.neighbors (left.refreshed timestep first).source) schedule =
              .ok results ∧
          ((right.refreshed other second).pairSum second).sharedTotal
            (NeighborSource.neighbors (right.refreshed other second).source) schedule =
              .ok results := by
  have typed : ((left.refreshed timestep first).pairSum first).WellTyped :=
    (checkSystem_eq_ok_iff.1 checked).1
  rcases exists_results_of_covers checked covers with ⟨results, summed, computed⟩
  have summedToo : right.computedResults other second = .ok results :=
    alike.total.symm.trans summed
  have sizedToo : NeighborSource.size (right.refreshed other second).source = second.size :=
    right.source.size_lists_refresh other second
  refine ⟨results, computed,
    computeForces_eq_done_iff.2 ⟨checkedToo, sizedToo, results, summedToo, rfl⟩, ?_⟩
  intro schedule once
  have inRange : ∀ i ∈ schedule.particles, i < first.size :=
    fun i member => List.mem_range.1 (once.mem_iff.1 member)
  have shared := PairSum.sharedTotal_eq_total typed covers once summed
  exact ⟨shared, (alike.sharedTotal inRange).symm.trans shared⟩

end Potential

end Nonbonded
