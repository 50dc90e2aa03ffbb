import Nonbonded.Proofs.Exact.StorageModes
import Nonbonded.Proofs.PairSum.Sharing
import Nonbonded.Proofs.TypePair.Numbering

/-!
# The verdict on a system

Which systems a computation of forces refuses in exact arithmetic, and what the
error says.  The number of types is looked at first, then the box, and after
the source was brought up to date the number of listed particles.  The box is
measured against the cutoffs of all pairs of types, whether particles of these
types occur or not, and the error names the first of the shortest axes and the
largest cutoff.

Nothing looks at the lists themselves.  A system that is not refused is
computed when they name its particles only; an index past the end is a fault of
the sum, even for a pair that would be out of reach.
-/

namespace Nonbonded

/-! ## The shortest axis -/

/-- An axis with a shortest box length, and the lowest of them. -/
def Box.IsFirstShortest (box : Box ℝ) (axis : Axis) : Prop :=
  (∀ other, box.lengths.get axis ≤ box.lengths.get other) ∧
    ∀ other < axis, box.lengths.get axis < box.lengths.get other

theorem Box.isFirstShortest_shortestAxis (box : Box ℝ) :
    box.IsFirstShortest box.shortestAxis := by
  refine ⟨box.lengths_shortestAxis_le, fun other earlier => ?_⟩
  have axes : ∀ axis : Axis, axis = 0 ∨ axis = 1 ∨ axis = 2 := by decide
  simp only [shortestAxis, List.foldl_cons, List.foldl_nil] at earlier ⊢
  -- An axis replaced the one before it only when it was strictly shorter.
  split_ifs at earlier ⊢ with second third third <;>
    rcases axes other with rfl | rfl | rfl <;>
    first
    | exact absurd earlier (by decide)
    | linarith

/-- The running maximum of a list is its start or one of the values. -/
theorem Scalar.foldl_max_eq_or_mem {values : List ℝ} {start : ℝ} :
    values.foldl Scalar.max start = start ∨ values.foldl Scalar.max start ∈ values := by
  induction values generalizing start with
  | nil => exact .inl rfl
  | cons first rest inductionHypothesis =>
      rw [List.foldl_cons]
      rcases @inductionHypothesis (Scalar.max start first) with kept | later
      · rw [kept, Scalar.max]
        split
        · exact .inr List.mem_cons_self
        · exact .inl rfl
      · exact .inr (List.mem_cons_of_mem first later)

theorem Box.minHalfLength_eq (box : Box ℝ) :
    box.minHalfLength = (box.shortestAxis, box.halfLength box.shortestAxis) := by
  rw [minHalfLength, Scalar.half_real, halfLength]
  congr 1
  ring

namespace Potential

variable {law : PairLaw ℝ} {ν : Type} {potential : Potential law ν} {system : ParticleSystem ℝ}

/-! ## Cutoffs -/

/-- A radius is the cutoff of some pair of types. -/
def IsCutoff (potential : Potential law ν) (radius : ℝ) : Prop :=
  0 ≤ radius ∧ ∃ type1 type2 entry, potential.table.tryGet type1 type2 = .ok entry ∧
    entry.rcutsq = radius * radius

theorem IsCutoff.le_maxCutoff {radius : ℝ} (cutoff : potential.IsCutoff radius) :
    radius ≤ potential.maxCutoff := by
  rcases cutoff with ⟨nonneg, type1, type2, entry, read, square⟩
  have stored : entry ∈ potential.table.values :=
    TypePair.Table.mem_values_iff.2 ⟨type1, type2, read⟩
  have bounded : radius ^ 2 ≤ potential.maxCutoff ^ 2 := by
    rw [sq radius, ← square]
    exact rcutsq_le_sq_maxCutoff stored
  exact le_of_sq_le_sq bounded maxCutoff_nonneg

/-- A largest cutoff above zero is the cutoff of some pair of types. -/
theorem isGreatest_maxCutoff (positive : 0 < potential.maxCutoff) :
    IsGreatest {radius | potential.IsCutoff radius} potential.maxCutoff := by
  refine ⟨?_, fun radius cutoff => cutoff.le_maxCutoff⟩
  have square : potential.maxCutoff * potential.maxCutoff = potential.largestCutoffSq :=
    Real.mul_self_sqrt largestCutoffSq_nonneg
  have attained : potential.largestCutoffSq = 0 ∨
      potential.largestCutoffSq ∈ potential.table.values.toList.map (·.rcutsq) := by
    rw [largestCutoffSq, ← Array.foldl_toList, Array.toList_map]
    rcases Scalar.foldl_max_eq_or_mem with zero | member
    · exact .inl (zero.trans Nat.cast_zero)
    · exact .inr member
  rcases attained with zero | member
  · rw [← square] at zero
    exact absurd zero (mul_pos positive positive).ne'
  · rcases List.mem_map.1 member with ⟨entry, stored, isLargest⟩
    rcases TypePair.Table.mem_values_iff.1 (Array.mem_toList_iff.1 stored) with
      ⟨type1, type2, read⟩
    exact ⟨positive.le, type1, type2, entry, read, isLargest.trans square.symm⟩

/-- Some cutoff is greater than half the box length on some axis. -/
def Outgrows (potential : Potential law ν) (box : Box ℝ) : Prop :=
  ∃ radius, potential.IsCutoff radius ∧ ∃ axis, box.halfLength axis < radius

theorem outgrows_iff {box : Box ℝ} :
    potential.Outgrows box ↔ box.halfLength box.shortestAxis < potential.maxCutoff := by
  constructor
  · rintro ⟨radius, cutoff, axis, exceeds⟩
    have shortest := box.lengths_shortestAxis_le axis
    calc
      box.halfLength box.shortestAxis ≤ box.halfLength axis := by
        rw [Box.halfLength, Box.halfLength]
        linarith
      _ < radius := exceeds
      _ ≤ potential.maxCutoff := cutoff.le_maxCutoff
  · intro exceeds
    have positive := (box.halfLength_pos _).trans exceeds
    exact ⟨_, (isGreatest_maxCutoff positive).1, _, exceeds⟩

/-! ## The checks -/

theorem checkSystem_of_unknown (unknown : potential.typeCount < system.typeCount) :
    potential.checkSystem system =
      .error (.typeCountMismatch system.typeCount potential.typeCount) :=
  if_pos unknown

theorem checkSystem_of_outgrows (known : system.typeCount ≤ potential.typeCount)
    (outgrows : potential.Outgrows system.box) :
    potential.checkSystem system = .error (.boxTooSmall system.box.shortestAxis
      (system.box.halfLength system.box.shortestAxis) potential.maxCutoff) := by
  rw [checkSystem, if_neg (Nat.not_lt.2 known), Box.minHalfLength_eq]
  exact if_pos (outgrows_iff.1 outgrows)

theorem checkSystem_iff_not_outgrows :
    potential.checkSystem system = .ok () ↔
      system.typeCount ≤ potential.typeCount ∧ ¬potential.Outgrows system.box := by
  rw [checkSystem_eq_ok_iff, outgrows_iff, Box.minHalfLength_eq]

/-! ## The verdict -/

variable [NeighborSource ν ℝ] {timestep : Nat} {error reason : Error ℝ}

/-- A computation of forces is refused with an error. -/
def RefusesForces (potential : Potential law ν) (timestep : Nat) (system : ParticleSystem ℝ)
    (error : Error ℝ) : Prop :=
  ∃ after, potential.computeForces timestep system = .ok (.refuse error after)

/-- A computation that is refused has one reason. -/
theorem refusesForces_iff_eq {after : Potential law ν}
    (refused : potential.computeForces timestep system = .ok (.refuse reason after)) :
    potential.RefusesForces timestep system error ↔ error = reason := by
  constructor
  · rintro ⟨state, same⟩
    rw [refused] at same
    cases same
    rfl
  · rintro rfl
    exact ⟨after, refused⟩

/-- The reasons in the order in which they are looked for. -/
theorem refusesForces_iff :
    potential.RefusesForces timestep system error ↔
      (potential.typeCount < system.typeCount ∧
        error = .typeCountMismatch system.typeCount potential.typeCount) ∨
      (system.typeCount ≤ potential.typeCount ∧ potential.Outgrows system.box ∧
        error = .boxTooSmall system.box.shortestAxis
          (system.box.halfLength system.box.shortestAxis) potential.maxCutoff) ∨
      (system.typeCount ≤ potential.typeCount ∧ ¬potential.Outgrows system.box ∧
        NeighborSource.size (potential.refreshed timestep system).source ≠ system.size ∧
        error = .particleCountMismatch system.size
          (NeighborSource.size (potential.refreshed timestep system).source)) := by
  by_cases unknown : potential.typeCount < system.typeCount
  · rw [refusesForces_iff_eq (computeForces_of_rejected (checkSystem_of_unknown unknown) timestep)]
    simp [unknown, Nat.not_le.2 unknown]
  have known := Nat.not_lt.1 unknown
  by_cases outgrows : potential.Outgrows system.box
  · rw [refusesForces_iff_eq
      (computeForces_of_rejected (checkSystem_of_outgrows known outgrows) timestep)]
    simp [unknown, known, outgrows]
  have computes :=
    computeForces_of_checked (checkSystem_iff_not_outgrows.2 ⟨known, outgrows⟩) timestep
  by_cases different :
      NeighborSource.size (potential.refreshed timestep system).source ≠ system.size
  · rw [if_pos different] at computes
    rw [refusesForces_iff_eq computes]
    simp [unknown, known, outgrows, different]
  · have never : ¬potential.RefusesForces timestep system error := by
      rintro ⟨after, refused⟩
      rw [computes, if_neg different] at refused
      rcases bind_eq_ok_iff.1 refused with ⟨results, -, finished⟩
      cases congrArg Reply.answer (Except.ok.inj finished)
    simp [never, unknown, outgrows, different]

/-- When a computation of forces is refused and with which error, and when it
is done. -/
structure Verdict (potential : Potential law ν) (timestep : Nat) (system : ParticleSystem ℝ) :
    Prop where
  typeCountMismatch_iff :
    (∃ inSystem known,
      potential.RefusesForces timestep system (.typeCountMismatch inSystem known)) ↔
      potential.typeCount < system.typeCount
  typeCountMismatch_fields : ∀ inSystem known,
    potential.RefusesForces timestep system (.typeCountMismatch inSystem known) →
      inSystem = system.typeCount ∧ known = potential.typeCount
  boxTooSmall_iff :
    (∃ axis halfLength cutoff,
      potential.RefusesForces timestep system (.boxTooSmall axis halfLength cutoff)) ↔
      system.typeCount ≤ potential.typeCount ∧ potential.Outgrows system.box
  boxTooSmall_fields : ∀ axis halfLength cutoff,
    potential.RefusesForces timestep system (.boxTooSmall axis halfLength cutoff) →
      system.box.IsFirstShortest axis ∧ halfLength = system.box.halfLength axis ∧
        IsGreatest {radius | potential.IsCutoff radius} cutoff
  particleCountMismatch_iff :
    (∃ particles listed,
      potential.RefusesForces timestep system (.particleCountMismatch particles listed)) ↔
      system.typeCount ≤ potential.typeCount ∧ ¬potential.Outgrows system.box ∧
        NeighborSource.size (potential.refreshed timestep system).source ≠ system.size
  particleCountMismatch_fields : ∀ particles listed,
    potential.RefusesForces timestep system (.particleCountMismatch particles listed) →
      particles = system.size ∧
        listed = NeighborSource.size (potential.refreshed timestep system).source
  /-- There are no other errors. -/
  refused_iff : (∃ error, potential.RefusesForces timestep system error) ↔
    potential.typeCount < system.typeCount ∨ potential.Outgrows system.box ∨
      NeighborSource.size (potential.refreshed timestep system).source ≠ system.size
  done_iff : (∃ final, potential.computeForces timestep system = .ok (.done () final)) ↔
    (¬∃ error, potential.RefusesForces timestep system error) ∧
      Covers (NeighborSource.neighbors (potential.refreshed timestep system).source) system.size
  cutoffs_fit : potential.checkSystem system = .ok () →
    ∀ radius, potential.IsCutoff radius → ∀ axis, radius ≤ system.box.halfLength axis

theorem done_iff_covers :
    (∃ final, potential.computeForces timestep system = .ok (.done () final)) ↔
      (¬∃ error, potential.RefusesForces timestep system error) ∧
        Covers (NeighborSource.neighbors (potential.refreshed timestep system).source)
          system.size := by
  constructor
  · rintro ⟨final, computed⟩
    constructor
    · rintro ⟨error, after, refused⟩
      rw [computed] at refused
      cases congrArg Reply.answer (Except.ok.inj refused)
    · rcases computeForces_eq_done_iff.1 computed with ⟨checked, -, results, summed, -⟩
      have typed : ((potential.refreshed timestep system).pairSum system).WellTyped :=
        (checkSystem_eq_ok_iff.1 checked).1
      exact (PairSum.exists_total_iff_covers typed).1 ⟨results, summed⟩
  · rintro ⟨unrefused, covers⟩
    have checked : potential.checkSystem system = .ok () := by
      cases rejected : potential.checkSystem system with
      | ok _ => rfl
      | error error =>
          exact absurd ⟨error, _, computeForces_of_rejected rejected timestep⟩ unrefused
    have sized : NeighborSource.size (potential.refreshed timestep system).source =
        system.size := by
      by_contra different
      have refused := computeForces_of_checked checked timestep
      rw [if_pos different] at refused
      exact unrefused ⟨_, _, refused⟩
    have typed : ((potential.refreshed timestep system).pairSum system).WellTyped :=
      (checkSystem_eq_ok_iff.1 checked).1
    rcases (PairSum.exists_total_iff_covers typed).2 covers with ⟨results, summed⟩
    exact ⟨_, computeForces_eq_done_iff.2 ⟨checked, sized, results, summed, rfl⟩⟩

/-- The verdict on every system, whatever the potential holds and whatever its
source does. -/
theorem verdict_of_computeForces (potential : Potential law ν) (timestep : Nat)
    (system : ParticleSystem ℝ) : potential.Verdict timestep system where
  typeCountMismatch_iff := by simp [refusesForces_iff]
  typeCountMismatch_fields inSystem known refused := by
    simp only [refusesForces_iff, reduceCtorEq, and_false, or_false] at refused
    simpa using refused.2
  boxTooSmall_iff := by simp [refusesForces_iff]
  boxTooSmall_fields axis halfLength cutoff refused := by
    rcases refusesForces_iff.1 refused with ⟨-, same⟩ | ⟨-, outgrows, same⟩ | ⟨-, -, -, same⟩
    · cases same
    · cases same
      have positive := (system.box.halfLength_pos _).trans (outgrows_iff.1 outgrows)
      exact ⟨system.box.isFirstShortest_shortestAxis, rfl, isGreatest_maxCutoff positive⟩
    · cases same
  particleCountMismatch_iff := by simp [refusesForces_iff]
  particleCountMismatch_fields particles listed refused := by
    simp only [refusesForces_iff, reduceCtorEq, and_false, false_or] at refused
    simpa using refused.2.2.2
  refused_iff := by
    simp only [refusesForces_iff]
    by_cases unknown : potential.typeCount < system.typeCount
    · simp [unknown]
    · by_cases outgrows : potential.Outgrows system.box <;>
        simp [unknown, outgrows, Nat.not_lt.1 unknown]
  done_iff := done_iff_covers
  cutoffs_fit checked radius cutoff axis :=
    cutoff.le_maxCutoff.trans (maxCutoff_le_halfLength checked axis)

/-! ## Lists that name other particles -/

/-- A source whose lists are given once and for all. -/
structure GivenLists where
  mode : StorageMode
  lists : Array (Array Nat)

instance : NeighborSource GivenLists ℝ where
  refresh _ _ given := given
  mode := GivenLists.mode
  size given := given.lists.size
  neighbors given := entryAt given.lists

/-- Lists for two particles, of which the first names a third one. -/
def dangling : GivenLists :=
  ⟨.half, #[#[2], #[]]⟩

open ParticleSystem (dimerAcross)

/-- Over these lists a new potential has no reason to refuse a dimer, and its
computation faults all the same. -/
theorem computeForces_dangling :
    ∃ start, create (PairLaw.lennardJones : PairLaw ℝ) 1 dangling = .ok start ∧
      dimerAcross.typeCount ≤ start.typeCount ∧ ¬start.Outgrows dimerAcross.box ∧
      NeighborSource.size (start.refreshed 0 dimerAcross).source = dimerAcross.size ∧
      start.computeForces 0 dimerAcross = .error (.outOfRange 2 2) := by
  let start : Potential (PairLaw.lennardJones : PairLaw ℝ) GivenLists :=
    ⟨dangling, .none, ⟨1, #[.unset _], rfl⟩, .empty, none⟩
  have fits : ¬start.Outgrows dimerAcross.box := by
    rintro ⟨radius, ⟨-, type1, type2, entry, read, square⟩, axis, exceeds⟩
    have stored : entry ∈ start.table.values :=
      TypePair.Table.mem_values_iff.2 ⟨type1, type2, read⟩
    have unset : entry = .unset _ := List.mem_singleton.1 (Array.mem_toList_iff.2 stored)
    have zero : radius * radius = 0 := by
      rw [← square, unset]
      exact Nat.cast_zero
    rw [mul_self_eq_zero.1 zero] at exceeds
    exact absurd exceeds (not_lt.2 (dimerAcross.box.halfLength_pos axis).le)
  refine ⟨start, rfl, le_refl 1, fits, rfl, ?_⟩
  rw [computeForces_of_checked (checkSystem_iff_not_outgrows.2 ⟨le_refl 1, fits⟩) 0]
  rfl

end Potential

end Nonbonded
