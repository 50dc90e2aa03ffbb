import Nonbonded.Proofs.Exact.Symmetry
import Nonbonded.Proofs.Potential.Steps

/-!
# The guard on the box in exact arithmetic

A system is refused when half of its shortest box length is less than the
largest cutoff.  In exact arithmetic a system that is let through has every
cutoff fit on every axis.
-/

namespace Nonbonded

/-- The shorter of two axes. -/
noncomputable def Box.shorter (length : Axis → ℝ) (best axis : Axis) : Axis :=
  if length axis < length best then axis else best

theorem Box.length_shorter_le (length : Axis → ℝ) (best axis : Axis) :
    length (shorter length best axis) ≤ length best ∧
      length (shorter length best axis) ≤ length axis := by
  unfold shorter
  split
  · next below => exact ⟨below.le, le_rfl⟩
  · next above => exact ⟨le_rfl, not_lt.1 above⟩

/-- Keeping the shorter of two axes all along ends with one no longer than any
axis passed. -/
theorem Box.length_foldl_shorter_le {length : Axis → ℝ} {axes : List Axis} {start axis : Axis}
    (passed : length start ≤ length axis ∨ axis ∈ axes) :
    length (axes.foldl (shorter length) start) ≤ length axis := by
  induction axes generalizing start with
  | nil =>
      rcases passed with below | member
      · exact below
      · cases member
  | cons first rest inductionHypothesis =>
      obtain ⟨leStart, leFirst⟩ := length_shorter_le length start first
      apply inductionHypothesis
      rcases passed with below | member
      · exact .inl (leStart.trans below)
      · rcases List.mem_cons.1 member with rfl | later
        · exact .inl leFirst
        · exact .inr later

theorem Box.lengths_shortestAxis_le (box : Box ℝ) (axis : Axis) :
    box.lengths.get box.shortestAxis ≤ box.lengths.get axis := by
  apply Box.length_foldl_shorter_le
  fin_cases axis
  · exact .inl le_rfl
  · exact .inr (by simp)
  · exact .inr (by simp)

theorem Scalar.max_real (left right : ℝ) : Scalar.max left right = Max.max left right := by
  rw [Scalar.max]
  split
  · next below => exact (max_eq_right below.le).symm
  · next above => exact (max_eq_left (not_lt.1 above)).symm

/-- The running maximum of a list is at least its start and every value. -/
theorem Scalar.le_foldl_max {values : List ℝ} {start value : ℝ}
    (bounded : value ≤ start ∨ value ∈ values) : value ≤ values.foldl Scalar.max start := by
  induction values generalizing start with
  | nil =>
      rcases bounded with below | member
      · exact below
      · cases member
  | cons first rest inductionHypothesis =>
      apply inductionHypothesis
      rw [Scalar.max_real]
      rcases bounded with below | member
      · exact .inl (le_max_of_le_left below)
      · rcases List.mem_cons.1 member with rfl | later
        · exact .inl (le_max_right _ _)
        · exact .inr later

namespace Potential

/-- The largest squared cutoff, or zero when all are below. -/
def largestCutoffSq {α : Type} [Scalar α] {law : PairLaw α} {ν : Type}
    (potential : Potential law ν) : α :=
  (potential.table.values.map (·.rcutsq)).foldl Scalar.max 0

variable {law : PairLaw ℝ} {ν : Type} {potential : Potential law ν}

theorem largestCutoffSq_nonneg : 0 ≤ potential.largestCutoffSq := by
  rw [largestCutoffSq, ← Array.foldl_toList]
  exact Scalar.le_foldl_max (.inl Nat.cast_zero.ge)

theorem rcutsq_le_largestCutoffSq {entry : PairEntry law}
    (stored : entry ∈ potential.table.values) : entry.rcutsq ≤ potential.largestCutoffSq := by
  rw [largestCutoffSq, ← Array.foldl_toList]
  apply Scalar.le_foldl_max
  right
  rw [Array.toList_map]
  exact List.mem_map_of_mem (Array.mem_toList_iff.2 stored)

theorem maxCutoff_nonneg : 0 ≤ potential.maxCutoff :=
  Real.sqrt_nonneg _

theorem rcutsq_le_sq_maxCutoff {entry : PairEntry law}
    (stored : entry ∈ potential.table.values) : entry.rcutsq ≤ potential.maxCutoff ^ 2 := by
  have square : potential.maxCutoff ^ 2 = potential.largestCutoffSq :=
    Real.sq_sqrt largestCutoffSq_nonneg
  rw [square]
  exact rcutsq_le_largestCutoffSq stored

theorem rcutsq_le_mul_self {radius : ℝ} (within : potential.maxCutoff ≤ radius) :
    ∀ entry ∈ potential.table.values, entry.rcutsq ≤ radius * radius := by
  intro entry stored
  calc
    entry.rcutsq ≤ potential.maxCutoff ^ 2 := rcutsq_le_sq_maxCutoff stored
    _ ≤ radius ^ 2 := pow_le_pow_left₀ maxCutoff_nonneg within 2
    _ = radius * radius := sq radius

theorem maxCutoff_le_halfLength {system : ParticleSystem ℝ}
    (checked : potential.checkSystem system = .ok ()) (axis : Axis) :
    potential.maxCutoff ≤ system.box.halfLength axis := by
  obtain ⟨-, large⟩ := checkSystem_eq_ok_iff.1 checked
  have guarded := not_lt.1 large
  rw [Box.minHalfLength, Scalar.half_real] at guarded
  have shortest := system.box.lengths_shortestAxis_le axis
  calc
    potential.maxCutoff ≤ 1 / 2 * system.box.lengths.get system.box.shortestAxis := guarded
    _ ≤ system.box.halfLength axis := by
      rw [Box.halfLength]
      linarith

variable [NeighborSource ν ℝ]

/-- A system that passes the checks has every cutoff of the sum fit its box. -/
theorem cutoffsFit_of_checked {system : ParticleSystem ℝ}
    (checked : potential.checkSystem system = .ok ()) : (potential.pairSum system).CutoffsFit := by
  intro entry stored axis
  calc
    entry.rcutsq ≤ potential.maxCutoff ^ 2 := rcutsq_le_sq_maxCutoff stored
    _ ≤ system.box.halfLength axis ^ 2 :=
      pow_le_pow_left₀ maxCutoff_nonneg (maxCutoff_le_halfLength checked axis) 2

end Potential

end Nonbonded
