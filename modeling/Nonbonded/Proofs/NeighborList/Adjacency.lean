import Mathlib.Algebra.BigOperators.Group.Finset.Piecewise
import Mathlib.Algebra.BigOperators.Group.Finset.Sigma
import Nonbonded.Proofs.NeighborList.Entries
import Nonbonded.Proofs.NeighborList.Origin
import Nonbonded.Proofs.ParticleSystem.Arrays

/-!
# Lists of near pairs

A rebuild leaves one list for every particle, in increasing order and without
repetition.  When a pair is listed once it stands in the list of its smaller
index; when it is listed twice the lists are symmetric.  In both modes the
number of listed pairs is the number of pairs that pass the test.

The test is made from the smaller index and may be any one: nothing is assumed
about the arithmetic, in particular not that the test would come out the same
from the larger index.
-/

namespace Nonbonded.NeighborList

/-- The pairs of indices below `size` that pass a test, the smaller index
first. -/
def passing (test : Nat → Nat → Bool) (size : Nat) : Finset (Nat × Nat) :=
  (Finset.range size ×ˢ Finset.range size).filter fun pair =>
    pair.1 < pair.2 ∧ test pair.1 pair.2 = true

section Partners

variable {mode : StorageMode} {test : Nat → Nat → Bool} {size i j : Nat}

theorem pairwise_lt_partnersOf : (partnersOf mode test size i).Pairwise (· < ·) :=
  List.pairwise_lt_range.filter _

theorem enters_half_iff : enters .half test i j = true ↔ i < j ∧ test i j = true := by
  simp [enters]

theorem enters_full_iff :
    enters .full test i j = true ↔ j ≠ i ∧ test (min i j) (max i j) = true := by
  rcases Nat.lt_trichotomy i j with below | rfl | above
  · rw [enters_of_lt below, Nat.min_eq_left below.le, Nat.max_eq_right below.le]
    simp [below.ne']
  · simp [enters_self]
  · rw [enters_of_gt above, Nat.min_eq_right above.le, Nat.max_eq_left above.le]
    simp [above.ne]

/-! ## Counting entries -/

theorem length_partnersOf : (partnersOf mode test size i).length =
    ∑ j ∈ Finset.range size, if enters mode test i j = true then 1 else 0 := by
  rw [← Finset.card_filter]
  change _ = ((List.range size).filter fun j => decide (enters mode test i j = true)).length
  simp only [Bool.decide_eq_true]
  rfl

theorem card_passing : (passing test size).card =
    ∑ i ∈ Finset.range size, ∑ j ∈ Finset.range size,
      if i < j ∧ test i j = true then 1 else 0 := by
  rw [passing, Finset.card_filter, Finset.sum_product]

/-- Listed once, every passing pair makes one entry. -/
theorem sum_length_partnersOf_half :
    ∑ i ∈ Finset.range size, (partnersOf .half test size i).length = (passing test size).card := by
  simp only [length_partnersOf, enters_half_iff, card_passing]

/-- Listed twice, every passing pair makes one entry above and one below the
diagonal. -/
theorem sum_length_partnersOf_full :
    ∑ i ∈ Finset.range size, (partnersOf .full test size i).length =
      2 * (passing test size).card := by
  have split : ∀ i j, (if enters .full test i j = true then 1 else 0) =
      (if i < j ∧ test i j = true then 1 else 0) + if j < i ∧ test j i = true then 1 else 0 := by
    intro i j
    rcases Nat.lt_trichotomy i j with below | rfl | above
    · simp [enters_of_lt below, below, Nat.lt_asymm below]
    · simp [enters_self]
    · simp [enters_of_gt above, above, Nat.lt_asymm above]
  calc
    ∑ i ∈ Finset.range size, (partnersOf .full test size i).length
    _ = (passing test size).card +
        ∑ i ∈ Finset.range size, ∑ j ∈ Finset.range size,
          if j < i ∧ test j i = true then 1 else 0 := by
      simp only [length_partnersOf, split, Finset.sum_add_distrib, card_passing]
    _ = (passing test size).card + (passing test size).card := by
      rw [Finset.sum_comm, card_passing]
    _ = 2 * (passing test size).card := (Nat.two_mul _).symm

end Partners

/-! ## The lists of a rebuild -/

variable {α : Type} [Scalar α]

theorem scan_eq_map (mode : StorageMode) (reach : α) (system : ParticleSystem α) :
    scan mode reach system = ((List.range system.size).map fun i =>
      (partnersOf mode (nearAt reach system) system.size i).toArray).toArray := by
  apply Array.ext_getElem?
  intro i
  by_cases inRange : i < system.size
  · rw [getElem?_scan mode reach system inRange]
    simp [inRange]
  · have past : (scan mode reach system).size ≤ i := by
      rw [size_scan]
      exact Nat.not_lt.1 inRange
    rw [Array.getElem?_eq_none past]
    simp [inRange]

/-- The number of entries that a scan leaves in all lists together. -/
theorem foldl_size_scan (mode : StorageMode) (reach : α) (system : ParticleSystem α) :
    (scan mode reach system).foldl (· + ·.size) 0 =
      ∑ i ∈ Finset.range system.size,
        (partnersOf mode (nearAt reach system) system.size i).length := by
  rw [scan_eq_map, ← Array.foldl_map, ← Array.sum_eq_foldl, List.map_toArray, List.sum_toArray,
    List.map_map]
  rfl

/-- The number of listed pairs after a rebuild. -/
theorem pairCount_build (list : NeighborList α) (timestep : Nat) (system : ParticleSystem α) :
    (list.build timestep system).pairCount =
      (passing (nearAt list.reach system) system.size).card := by
  have entries := foldl_size_scan list.mode list.reach system
  unfold pairCount
  cases mode : list.mode with
  | half =>
      rw [mode, sum_length_partnersOf_half] at entries
      simp only [build, mode]
      exact entries
  | full =>
      rw [mode, sum_length_partnersOf_full] at entries
      simp only [build, mode]
      rw [entries, Nat.mul_div_cancel_left _ Nat.two_pos]

/-- A particle past the end has no list after a rebuild. -/
theorem mem_listed_build {list : NeighborList α} {timestep : Nat} {system : ParticleSystem α}
    {i j : Nat} : j ∈ listed (list.build timestep system).neighbors i ↔
      i < system.size ∧ j < system.size ∧
        enters list.mode (nearAt list.reach system) i j = true := by
  by_cases inRange : i < system.size
  · rw [listed_build list timestep system inRange, mem_partnersOf]
    simp only [inRange, true_and]
  · have past : (list.build timestep system).lists[i]? = none := by
      apply Array.getElem?_eq_none
      rw [build, size_scan]
      exact Nat.not_lt.1 inRange
    simp [listed, neighbors, entryAt, past, inRange]

/-- A neighbor list holds the near pairs of a system: one increasing list for
every particle, whose entries are the partners at which the test from the
smaller index passes. -/
structure HoldsNear (list : NeighborList α) (mode : StorageMode) (reach : α)
    (system : ParticleSystem α) : Prop where
  size : list.lists.size = system.size
  increasing : ∀ i < system.size, ∃ partners,
    list.neighbors i = .ok partners ∧ partners.toList.Pairwise (· < ·)
  mem_half : mode = .half → ∀ i j, j ∈ listed list.neighbors i ↔
    i < j ∧ j < system.size ∧ nearAt reach system i j = true
  mem_full : mode = .full → ∀ i < system.size, ∀ j, j ∈ listed list.neighbors i ↔
    j < system.size ∧ j ≠ i ∧ nearAt reach system (min i j) (max i j) = true
  symmetric : mode = .full → ∀ i j, j ∈ listed list.neighbors i ↔ i ∈ listed list.neighbors j
  pairCount : list.pairCount = (passing (nearAt reach system) system.size).card

/-- A refresh that rebuilds leaves the near pairs of its system, by the radii
and in the storage mode that the list had. -/
theorem holdsNear_refresh {list : NeighborList α} {timestep : Nat} {system : ParticleSystem α}
    (rebuilds : list.isCurrent timestep system = false) :
    (list.refresh timestep system).HoldsNear list.mode list.reach system := by
  rw [refresh_of_stale rebuilds]
  constructor
  case size => exact size_scan _ _ _
  case increasing =>
    intro i inRange
    exact ⟨_, neighbors_build list timestep system inRange, pairwise_lt_partnersOf⟩
  case mem_half =>
    intro half i j
    rw [mem_listed_build, half, enters_half_iff]
    constructor
    · rintro ⟨-, inRange, below, near⟩
      exact ⟨below, inRange, near⟩
    · rintro ⟨below, inRange, near⟩
      exact ⟨below.trans inRange, inRange, below, near⟩
  case mem_full =>
    intro full i inRange j
    rw [mem_listed_build, full, enters_full_iff]
    simp only [inRange, true_and]
  case symmetric =>
    intro full i j
    rw [mem_listed_build, mem_listed_build, full, enters_full_iff, enters_full_iff, min_comm,
      max_comm, ne_comm]
    constructor
    · rintro ⟨first, second, entered⟩
      exact ⟨second, first, entered⟩
    · rintro ⟨first, second, entered⟩
      exact ⟨second, first, entered⟩
  case pairCount => exact pairCount_build list timestep system

open ParticleSystem (dimer trimer floatCube)

/-- A list that was built for a dimer, listing its pair once, and then set to
list pairs twice. -/
def switched : NeighborList Float :=
  ((create 1 0.5 .half).refresh 1 (dimer floatCube 1)).setMode .full

/-- It is refreshed for a trimer within the same timestep. -/
theorem holdsNear_switched :
    switched.isCurrent 1 (trimer floatCube 1) = false ∧
      (switched.refresh 1 (trimer floatCube 1)).HoldsNear .full switched.reach
        (trimer floatCube 1) ∧
      (switched.refresh 1 (trimer floatCube 1)).lists = #[#[1], #[0, 2], #[1]] ∧
      (switched.refresh 1 (trimer floatCube 1)).pairCount = 2 := by
  have rebuilds : switched.isCurrent 1 (trimer floatCube 1) = false := rfl
  exact ⟨rebuilds, holdsNear_refresh rebuilds, by decide +kernel, by decide +kernel⟩

end Nonbonded.NeighborList
