import Nonbonded.Proofs.Exact.LawForm
import Nonbonded.Proofs.Exact.OrderedField
import Nonbonded.Proofs.Exact.Translation
import Nonbonded.Proofs.Exact.Verdict
import Nonbonded.Proofs.PairSum.Calls
import Nonbonded.Proofs.Potential.Modes

/-!
# Smoothing inside the window

Smoothing divides by the cube of the window between onset and cutoff, and it is
meant for energies as the law defines them.  The mode by itself does not rule
out an onset at the cutoff, where the window is empty.  A computation of forces
does: it passes over every pair at or beyond the cutoff, and so what it smooths
lies between an onset and a cutoff that are apart.  For the same reason the
energy of such a pair was not shifted.

The calls are those of the traced computation, which ends as the computation
does, whatever the potential, its source and the system.
-/

namespace Nonbonded

/-! ## The calls of a computation -/

namespace Potential

variable {α : Type} [Scalar α] {law : PairLaw α} {ν : Type} [NeighborSource ν α]

/-- Compute the forces, energies and virials of every particle, with the calls
that are made. -/
def tracedComputeForces (potential : Potential law ν) (timestep : Nat)
    (system : ParticleSystem α) : Traced (Call law) (Reply (Error α) Unit (Potential law ν)) :=
  match potential.checkSystem system with
  | .error error => return .refuse error potential
  | .ok () =>
      let refreshed := potential.refreshed timestep system
      let listed := NeighborSource.size refreshed.source
      if listed ≠ system.size then
        return .refuse (.particleCountMismatch system.size listed) refreshed
      else do
        let results ←
          (refreshed.pairSum system).tracedTotal (NeighborSource.neighbors refreshed.source)
        return .done () { refreshed with results }

variable (potential : Potential law ν) (timestep : Nat) (system : ParticleSystem α)

theorem outcome_tracedComputeForces :
    (potential.tracedComputeForces timestep system).outcome =
      potential.computeForces timestep system := by
  rw [tracedComputeForces]
  cases checked : potential.checkSystem system with
  | error error => exact (computeForces_of_rejected checked timestep).symm
  | ok _ =>
      rw [computeForces_of_checked checked]
      dsimp only
      split
      · rfl
      · rw [Traced.outcome_bind, PairSum.outcome_tracedTotal]
        rfl

/-- Nothing is called for a system that is refused, and otherwise the calls are
those of the sum. -/
theorem smoothsPairs_tracedComputeForces :
    ((potential.refreshed timestep system).pairSum system).SmoothsPairs
      (potential.tracedComputeForces timestep system).record := by
  have additive := ((potential.refreshed timestep system).pairSum system).additive_smoothsPairs
  rw [tracedComputeForces]
  cases potential.checkSystem system with
  | error error => exact additive.nil
  | ok _ =>
      dsimp only
      split
      · exact additive.nil
      · exact additive.bind PairSum.smoothsPairs_tracedTotal fun _ _ => additive.nil

variable {potential timestep system}

/-- A computation that is done has recorded the calls of its sum. -/
theorem record_tracedComputeForces {final : Potential law ν}
    (computed : potential.computeForces timestep system = .ok (.done () final)) :
    let refreshed := potential.refreshed timestep system
    (potential.tracedComputeForces timestep system).record =
      ((refreshed.pairSum system).tracedTotal
        (NeighborSource.neighbors refreshed.source)).record := by
  intro refreshed
  rcases computeForces_eq_done_iff.1 computed with ⟨checked, sized, results, summed, -⟩
  have traced : ((refreshed.pairSum system).tracedTotal
      (NeighborSource.neighbors refreshed.source)).outcome = .ok results :=
    (PairSum.outcome_tracedTotal _ _).trans summed
  have covered : ¬NeighborSource.size refreshed.source ≠ system.size := not_not.2 sized
  rw [tracedComputeForces, checked]
  dsimp only
  rw [if_neg covered]
  exact (Traced.record_bind traced _).trans (List.append_nil _)

end Potential

/-! ## The window -/

theorem ShiftMode.smooths_iff {α : Type} [Scalar α] {mode : ShiftMode} {rsq rcutsq ronsq : α} :
    mode.smooths rsq rcutsq ronsq = true ↔ mode = .xplor ∧ ronsq ≤ rsq ∧ ronsq ≤ rcutsq := by
  cases mode <;> simp [smooths]

variable {K : Type} [Field K] [LinearOrder K]

/-- A smoothing from its onset on and below its cutoff, with a window between
the two. -/
structure Smoothing.InWindow (smoothing : Smoothing K) : Prop where
  onset_le : smoothing.ronsq ≤ smoothing.rsq
  lt_cutoff : smoothing.rsq < smoothing.rcutsq
  window_pos : 0 < smoothing.rcutsq - smoothing.ronsq
  /-- What smoothing divides by. -/
  cube_ne_zero : (smoothing.rcutsq - smoothing.ronsq) * (smoothing.rcutsq - smoothing.ronsq) *
    (smoothing.rcutsq - smoothing.ronsq) ≠ 0

variable [IsStrictOrderedRing K]

theorem Smoothing.inWindow_of_bounds {smoothing : Smoothing K}
    (onset : smoothing.ronsq ≤ smoothing.rsq) (cutoff : smoothing.rsq < smoothing.rcutsq) :
    smoothing.InWindow := by
  have window : 0 < smoothing.rcutsq - smoothing.ronsq := sub_pos.2 (onset.trans_lt cutoff)
  exact ⟨onset, cutoff, window, (mul_pos (mul_pos window window) window).ne'⟩

variable [Scalar.Elementary K] {law : PairLaw K}

namespace PairSum

/-- The law was evaluated for two particles without a shift, and what it gave
is smoothed at their separation, with the onset and the cutoff of their
types. -/
inductive SmoothsUnshifted (sum : PairSum law) (i j : Nat) : Call law → Smoothing K → Prop
  | of_reads {offset : Vec3 K} {entry : PairEntry law} {diameters charges : Option (K × K)}
      {raw : Interaction K} (reads : sum.Reads i j offset entry diameters charges)
      (given : law.evaluate entry.params ⟨offset.normSq, entry.rcutsq, diameters, charges⟩ false =
        some raw) :
      SmoothsUnshifted sum i j
        (.evaluate entry.params ⟨offset.normSq, entry.rcutsq, diameters, charges⟩ false)
        ⟨raw, offset.normSq, entry.rcutsq, entry.ronsq⟩

variable {sum : PairSum law} {i j : Nat} {last : Call law} {smoothing : Smoothing K}

omit [IsStrictOrderedRing K] in
theorem shifts_of_smooths {rsq rcutsq ronsq : K}
    (smooths : sum.shiftMode.smooths rsq rcutsq ronsq = true) :
    sum.shiftMode.shifts rcutsq ronsq = false := by
  rcases ShiftMode.smooths_iff.1 smooths with ⟨xplor, -, ordered⟩
  rw [xplor]
  exact decide_eq_false (not_lt.2 ordered)

/-- A pair below its cutoff is smoothed exactly when it lies in the window of
its types, and was not shifted then. -/
theorem smoothsPair_iff :
    sum.SmoothsPair i j last smoothing ↔
      sum.shiftMode = .xplor ∧ sum.SmoothsUnshifted i j last smoothing ∧ smoothing.InWindow := by
  constructor
  · rintro ⟨reads, below, smooths, given⟩
    rcases ShiftMode.smooths_iff.1 smooths with ⟨xplor, onset, -⟩
    rw [shifts_of_smooths smooths] at given ⊢
    exact ⟨xplor, .of_reads reads given, Smoothing.inWindow_of_bounds onset (not_le.1 below)⟩
  · rintro ⟨xplor, ⟨reads, given⟩, window⟩
    have smooths := ShiftMode.smooths_iff.2
      ⟨xplor, window.onset_le, window.onset_le.trans window.lt_cutoff.le⟩
    rw [← shifts_of_smooths smooths] at given ⊢
    exact .of_reads reads (not_le.2 window.lt_cutoff) smooths given

/-- Every smoothing of a record is one of an interaction that the call right
before it gave without a shift, inside the window of the pair. -/
def SmoothsInWindow (sum : PairSum law) (record : List (Call law)) : Prop :=
  EachSmoothedAfter
    (fun last smoothing => (∃ i j, sum.SmoothsUnshifted i j last smoothing) ∧ smoothing.InWindow)
      record

theorem SmoothsPairs.inWindow {record : List (Call law)} (smooths : sum.SmoothsPairs record) :
    sum.SmoothsInWindow record := by
  apply smooths.mono
  rintro last smoothing ⟨i, j, pair⟩
  rcases smoothsPair_iff.1 pair with ⟨-, unshifted, window⟩
  exact ⟨⟨i, j, unshifted⟩, window⟩

end PairSum

namespace Potential

variable {ν : Type} [NeighborSource ν K]

/-- Whatever a computation of forces smooths lies in the window of its pair of
types and was evaluated without a shift, also when the sum is shared between
workers.  And a computation that is done has smoothed every listed pair in its
window, if that is the mode. -/
theorem smoothsInWindow_tracedComputeForces (potential : Potential law ν) (timestep : Nat)
    (system : ParticleSystem K) :
    let traced := potential.tracedComputeForces timestep system
    let refreshed := potential.refreshed timestep system
    let sum := refreshed.pairSum system
    let neighbors := NeighborSource.neighbors refreshed.source
    traced.outcome = potential.computeForces timestep system ∧
    sum.SmoothsInWindow traced.record ∧
    (∀ final, traced.outcome = .ok (.done () final) → potential.shiftMode = .xplor →
      ∀ i, ∀ j ∈ listed neighbors i, ∀ last smoothing, sum.SmoothsUnshifted i j last smoothing →
        smoothing.InWindow → [last, .smooth smoothing] <:+: traced.record) ∧
    ∀ schedule,
      (sum.tracedSharedTotal neighbors schedule).outcome = sum.sharedTotal neighbors schedule ∧
      sum.SmoothsInWindow (sum.tracedSharedTotal neighbors schedule).record := by
  intro traced refreshed sum neighbors
  have ends := potential.outcome_tracedComputeForces timestep system
  refine ⟨ends, (potential.smoothsPairs_tracedComputeForces timestep system).inWindow, ?_,
    fun schedule => ⟨sum.outcome_tracedSharedTotal neighbors schedule,
      (PairSum.smoothsPairs_tracedSharedTotal schedule).inWindow⟩⟩
  intro final done xplor i j member last smoothing unshifted window
  have computed := ends.symm.trans done
  have smooths : sum.SmoothsPair i j last smoothing :=
    PairSum.smoothsPair_iff.2 ⟨xplor, unshifted, window⟩
  rcases computeForces_eq_done_iff.1 computed with ⟨-, -, results, summed, -⟩
  have inRange : i < sum.system.size := by
    cases unshifted with
    | of_reads reads =>
        rcases bind_eq_ok_iff.1 reads.separation with ⟨here, found, -⟩
        exact ParticleSystem.lt_size_of_position found
  have recorded := PairSum.infix_tracedTotal inRange member summed
  rw [PairSum.record_tracedTerm smooths, ← record_tracedComputeForces computed] at recorded
  exact recorded

open ParticleSystem (dimerAt)

/-- Two particles that are listed as neighbors and repel each other within a
distance of two, smoothed at every distance. -/
noncomputable def smoothRepulsion : Potential (PairLaw.lennardJones : PairLaw ℝ) GivenLists where
  source := ⟨.half, #[#[1], #[]]⟩
  shiftMode := .xplor
  table := (repulsive .half).table
  results := .empty
  computedFor := none

/-- What is read of the pair at a distance of one. -/
theorem reads_smoothRepulsion :
    ((smoothRepulsion.refreshed 0 (dimerAt 1 0)).pairSum (dimerAt 1 0)).Reads 0 1 (.onFirstAxis 1)
      ⟨4, 0, ⟨1, 1, 0⟩⟩ none none := by
  refine ⟨?_, ?_, rfl, rfl⟩
  · have displaced : Vec3.onFirstAxis 1 - Vec3.onFirstAxis 0 = Vec3.onFirstAxis 1 := by
      rw [Vec3.onFirstAxis_sub, sub_zero]
    have image := ParticleSystem.minimumImage_onFirstAxis (x := 1) (by norm_num)
    rw [← displaced] at image
    exact congrArg Except.ok (image.trans displaced)
  · change Except.ok
      (⟨((4 : ℕ) : ℝ), ((0 : ℕ) : ℝ), ⟨((1 : ℕ) : ℝ), ((1 : ℕ) : ℝ), ((0 : ℕ) : ℝ)⟩⟩ :
      PairEntry PairLaw.lennardJones) = _
    simp only [Nat.cast_ofNat, Nat.cast_one, Nat.cast_zero]

theorem exists_done_smoothRepulsion :
    ∃ final, smoothRepulsion.computeForces 0 (dimerAt 1 0) = .ok (.done () final) := by
  have checked : smoothRepulsion.checkSystem (dimerAt 1 0) = .ok () :=
    (checkSystem_congr rfl _).trans (checkSystem_repulsive .half rfl rfl)
  have typed : ((smoothRepulsion.refreshed 0 (dimerAt 1 0)).pairSum (dimerAt 1 0)).WellTyped :=
    (checkSystem_eq_ok_iff.1 checked).1
  have covers : Covers (NeighborSource.neighbors smoothRepulsion.source) 2 := by
    intro i hi
    match i with
    | 0 => exact ⟨#[1], rfl, by simp⟩
    | 1 => exact ⟨#[], rfl, by simp⟩
  rcases PairSum.exists_total typed covers with ⟨results, summed, -⟩
  exact ⟨_, computeForces_eq_done_iff.2 ⟨checked, rfl, results, summed, rfl⟩⟩

/-- At a distance of one the pair is smoothed, in a window of four. -/
theorem smoothsInWindow_smoothRepulsion :
    let system := dimerAt 1 0
    let traced := smoothRepulsion.tracedComputeForces 0 system
    let sum := (smoothRepulsion.refreshed 0 system).pairSum system
    (∃ final, traced.outcome = .ok (.done () final)) ∧
      traced.outcome = smoothRepulsion.computeForces 0 system ∧
      sum.SmoothsInWindow traced.record ∧ ∃ raw, .smooth ⟨raw, 1, 4, 0⟩ ∈ traced.record := by
  intro system traced sum
  rcases smoothsInWindow_tracedComputeForces smoothRepulsion 0 system with
    ⟨ends, window, complete, -⟩
  rcases exists_done_smoothRepulsion with ⟨final, done⟩
  have distance : (Vec3.onFirstAxis 1).normSq = 1 := by rw [Vec3.normSq_onFirstAxis, one_pow]
  let form := PairLaw.lennardJonesForm none none ⟨1, 1, 0⟩
  have on : ¬form.off := by
    rw [form.off_iff, PairLaw.off_lennardJones_iff]
    norm_num
  have onset : 0 ≤ (Vec3.onFirstAxis 1).normSq := by rw [distance]; exact zero_le_one
  have cutoff : (Vec3.onFirstAxis 1).normSq < 4 := by rw [distance]; norm_num
  have given : PairLaw.lennardJones.evaluate _ ⟨(Vec3.onFirstAxis 1).normSq, 4, _, _⟩ false =
      some _ :=
    form.evaluate_of_on on cutoff
  have smoothed := complete final (ends.trans done) rfl 0 1 (List.mem_singleton_self 1) _ _
    (.of_reads reads_smoothRepulsion given) (Smoothing.inWindow_of_bounds onset cutoff)
  rw [distance] at smoothed
  have member := smoothed.subset (List.mem_cons_of_mem _ (List.mem_singleton_self _))
  exact ⟨⟨final, ends.trans done⟩, ends, window, _, member⟩

end Potential

end Nonbonded
