import Nonbonded.Proofs.PairSum.Modes
import Nonbonded.Proofs.Potential.Safety

/-!
# Potentials that differ in their shift mode

Two potentials with the same settings, source and results, but different shift
modes, are asked for the forces of the same system.  The checks and the source
do not look at the mode, so both are refused for the same reason, and otherwise
both come down to the sums over the listed pairs.

Smoothing whose onset lies beyond the cutoff for every pair of types is
shifting, and smoothing whose onset lies at the cutoff for every pair of types
is no treatment at all, to the last bit.  In a table of both kinds, and of
others, each pair of types goes by its own onset and cutoff.
-/

namespace Nonbonded.Potential

variable {α : Type} [Scalar α] {law : PairLaw α} {ν : Type}

/-- The potential under another mode. -/
def inMode (potential : Potential law ν) (mode : ShiftMode) : Potential law ν :=
  { potential with shiftMode := mode }

/-- The checks do not look at the mode. -/
theorem checkSystem_inMode (potential : Potential law ν) (mode : ShiftMode)
    (system : ParticleSystem α) :
    (potential.inMode mode).checkSystem system = potential.checkSystem system :=
  checkSystem_congr rfl system

/-- Two potentials are the same but for their modes, and their results
agree. -/
structure SameButMode (agree : Accumulators α → Accumulators α → Prop)
    (left right : Potential law ν) : Prop where
  source : left.source = right.source
  table : left.table = right.table
  computedFor : left.computedFor = right.computedFor
  results : agree left.results right.results

/-- Two replies give the same answer, and leave potentials that are the same
but for their modes. -/
structure SameReply (agree : Accumulators α → Accumulators α → Prop)
    (left right : Reply (Error α) Unit (Potential law ν)) : Prop where
  answer : left.answer = right.answer
  state : SameButMode agree left.state right.state

variable [NeighborSource ν α]

/-- Under two modes computations of forces end alike, for every system at every
timestep, and so do the sums they come down to when these are shared between
workers. -/
structure ForcesAgree (agree : Accumulators α → Accumulators α → Prop)
    (potential : Potential law ν) (mode other : ShiftMode) : Prop where
  computeForces : ∀ timestep system, EndsAlike (SameReply agree)
    ((potential.inMode mode).computeForces timestep system)
    ((potential.inMode other).computeForces timestep system)
  sharedTotal : ∀ timestep system (schedule : Schedule),
    (∀ i ∈ schedule.particles, i < system.size) →
    EndsAlike agree
      ((((potential.inMode mode).refreshed timestep system).pairSum system).sharedTotal
        (NeighborSource.neighbors (potential.refreshed timestep system).source) schedule)
      ((((potential.inMode other).refreshed timestep system).pairSum system).sharedTotal
        (NeighborSource.neighbors (potential.refreshed timestep system).source) schedule)

variable {potential : Potential law ν} {mode other : ShiftMode}

theorem computeForces_inMode_of_rejected {system : ParticleSystem α} {error : Error α}
    (rejected : potential.checkSystem system = .error error) (mode : ShiftMode) (timestep : Nat) :
    (potential.inMode mode).computeForces timestep system =
      .ok (.refuse error (potential.inMode mode)) :=
  computeForces_of_rejected ((potential.checkSystem_inMode mode system).trans rejected) timestep

/-- Past the checks, the mode is looked at by the sum and by nothing else. -/
theorem computeForces_inMode_of_checked {system : ParticleSystem α}
    (checked : potential.checkSystem system = .ok ()) (mode : ShiftMode) (timestep : Nat) :
    (potential.inMode mode).computeForces timestep system =
      let refreshed := potential.refreshed timestep system
      if NeighborSource.size refreshed.source ≠ system.size then
        .ok (.refuse (.particleCountMismatch system.size (NeighborSource.size refreshed.source))
          (refreshed.inMode mode))
      else do
        let results ← ((refreshed.pairSum system).inMode mode).total
          (NeighborSource.neighbors refreshed.source)
        return .done () { refreshed.inMode mode with results } :=
  computeForces_of_checked ((potential.checkSystem_inMode mode system).trans checked) timestep

theorem computedResults_inMode (potential : Potential law ν) (mode : ShiftMode) (timestep : Nat)
    (system : ParticleSystem α) :
    (potential.inMode mode).computedResults timestep system =
      (((potential.refreshed timestep system).pairSum system).inMode mode).total
        (NeighborSource.neighbors (potential.refreshed timestep system).source) :=
  rfl

/-- Computations agree when the sums over the listed pairs do. -/
theorem forcesAgree_of_sums {agree : Accumulators α → Accumulators α → Prop}
    (refl : ∀ acc, agree acc acc)
    (sums : ∀ timestep system,
      ((potential.refreshed timestep system).pairSum system).ModesAgree agree mode other) :
    potential.ForcesAgree agree mode other := by
  constructor
  · intro timestep system
    cases checked : potential.checkSystem system with
    | error error =>
        rw [computeForces_inMode_of_rejected checked, computeForces_inMode_of_rejected checked]
        exact .done ⟨rfl, ⟨rfl, rfl, rfl, refl _⟩⟩
    | ok _ =>
        rw [computeForces_inMode_of_checked checked, computeForces_inMode_of_checked checked]
        dsimp only
        split
        · exact .done ⟨rfl, ⟨rfl, rfl, rfl, refl _⟩⟩
        · apply ((sums timestep system).total _).bind
          intro left right agreed
          exact .done ⟨rfl, ⟨rfl, rfl, rfl, agreed⟩⟩
  · intro timestep system schedule inRange
    exact (sums timestep system).sharedTotal _ schedule inRange

/-- Where computations agree, one that is done under the first mode is done
under the second. -/
theorem ForcesAgree.exists_done {agree : Accumulators α → Accumulators α → Prop}
    (agreed : potential.ForcesAgree agree mode other) {timestep : Nat} {system : ParticleSystem α}
    {final : Potential law ν}
    (computed : (potential.inMode mode).computeForces timestep system = .ok (.done () final)) :
    ∃ finalOther, (potential.inMode other).computeForces timestep system =
      .ok (.done () finalOther) ∧ agree final.results finalOther.results := by
  have alike := agreed.computeForces timestep system
  rw [computed] at alike
  rcases alike.exists_of_ok with ⟨⟨answer, finalOther⟩, computedOther, sameAnswer, same⟩
  cases sameAnswer
  exact ⟨finalOther, computedOther, same.results⟩

/-- Smoothing with every onset beyond the cutoff computes the same as shifting,
and with every onset at the cutoff the same as leaving energies alone.
Whatever the table holds, smoothing takes up each listed pair under the mode
that its types settle on: shifting when their onset is beyond their cutoff, and
none when it is at their cutoff. -/
theorem forcesAgree_of_xplor [Scalar.Consistent α] (potential : Potential law ν) :
    ((∀ entry ∈ potential.table.values, entry.OnsetBeyondCutoff) →
      potential.ForcesAgree Eq .xplor .shift) ∧
    ((∀ entry ∈ potential.table.values, entry.OnsetAtCutoff) →
      potential.ForcesAgree Eq .xplor .none) ∧
    ∀ timestep system,
      let refreshed := potential.refreshed timestep system
      let sum := refreshed.pairSum system
      (potential.inMode .xplor).computedResults timestep system =
        sum.totalBy sum.settledMode (NeighborSource.neighbors refreshed.source) ∧
      ∀ i j entry, sum.entry i j = .ok entry →
        (entry.OnsetBeyondCutoff → sum.settledMode i j = .shift ∧
          (sum.inMode .xplor).term i j = (sum.inMode .shift).term i j) ∧
        (entry.OnsetAtCutoff → sum.settledMode i j = .none ∧
          (sum.inMode .xplor).term i j = (sum.inMode .none).term i j) := by
  refine ⟨fun beyond => ?_, fun atCutoff => ?_, ?_⟩
  · apply forcesAgree_of_sums fun _ => rfl
    intro timestep system
    apply PairSum.modesAgree_of_settled
    intro entry stored
    exact PairEntry.settledMode_of_beyond (beyond entry stored)
  · apply forcesAgree_of_sums fun _ => rfl
    intro timestep system
    apply PairSum.modesAgree_of_settled
    intro entry stored
    exact PairEntry.settledMode_of_at (atCutoff entry stored)
  · intro timestep system refreshed sum
    rw [computedResults_inMode]
    refine ⟨sum.total_xplor _, fun i j entry found => ?_⟩
    rw [sum.term_xplor, PairSum.settledMode_eq found]
    constructor
    · intro beyond
      rw [PairEntry.settledMode_of_beyond beyond]
      exact ⟨rfl, rfl⟩
    · intro atCutoff
      rw [PairEntry.settledMode_of_at atCutoff]
      exact ⟨rfl, rfl⟩

open ParticleSystem (dimer floatCube)

/-- Particles of unit size that repel each other within a distance of two,
smoothed from an onset. -/
def repulsionFrom (ronsq : Float) :
    Potential (PairLaw.lennardJones : PairLaw Float) (NeighborList Float) where
  source := .create 2 1 .half
  shiftMode := .xplor
  table :=
    { typeCount := 1
      values := #[⟨4, ronsq, ⟨1, 1, 0⟩⟩]
      fits := TypePair.pairCount?_one }
  results := .empty
  computedFor := none

theorem forcesAgree_of_xplor_repulsionFrom :
    (repulsionFrom 9).ForcesAgree Eq .xplor .shift ∧
      (repulsionFrom 4).ForcesAgree Eq .xplor .none ∧
      (((repulsionFrom 9).refreshed 0 (dimer floatCube 1)).pairSum (dimer floatCube 1)).settledMode
        0 1 = .shift ∧
      ∃ final, (repulsionFrom 9).computeForces 0 (dimer floatCube 1) = .ok (.done () final) := by
  have stored : ∀ ronsq, ∀ entry ∈ (repulsionFrom ronsq).table.values,
      entry = ⟨4, ronsq, ⟨1, 1, 0⟩⟩ := by
    intro ronsq entry member
    exact List.mem_singleton.1 (Array.mem_toList_iff.2 member)
  have beyond : ∀ entry ∈ (repulsionFrom 9).table.values, entry.OnsetBeyondCutoff := by
    intro entry member
    rw [stored 9 entry member]
    decide
  have atCutoff : ∀ entry ∈ (repulsionFrom 4).table.values, entry.OnsetAtCutoff := by
    intro entry member
    rw [stored 4 entry member]
    decide
  rcases forcesAgree_of_xplor (repulsionFrom 9) with ⟨shifted, -, pairs⟩
  rcases forcesAgree_of_xplor (repulsionFrom 4) with ⟨-, unshifted, -⟩
  have settled := (pairs 0 (dimer floatCube 1)).2 0 1 _ rfl
  refine ⟨shifted beyond, unshifted atCutoff, (settled.1 ?_).1, ?_⟩
  · exact beyond _ (Array.mem_toList_iff.1 List.mem_cons_self)
  · have checked : (repulsionFrom 9).checkSystem (dimer floatCube 1) = .ok () :=
      checkSystem_eq_ok_iff.2 ⟨Nat.le_refl 1, by decide +kernel⟩
    exact exists_done_of_checked (NeighborList.inRange_create 2 1 .half) checked 0

end Nonbonded.Potential
