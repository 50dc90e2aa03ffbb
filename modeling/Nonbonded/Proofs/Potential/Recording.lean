import Nonbonded.Proofs.Potential.Steps

/-!
# A source that keeps a record

How often a source was brought up to date cannot be read off its state.  A
recording source keeps, next to the state of another source, the timesteps and
systems it was brought up to date with.

Nothing reads the record, so a potential over the recording source does what
one over the source alone does, with the same answers and the same faults.
-/

namespace Nonbonded

/-- The reply with its state seen through a function. -/
def Reply.mapState {ε β σ τ : Type} (f : σ → τ) (reply : Reply ε β σ) : Reply ε β τ :=
  ⟨reply.answer, f reply.state⟩

/-- A neighbor source with the timesteps and systems it was brought up to date
with, the latest last. -/
structure Recorded (ν α : Type) [Scalar α] where
  source : ν
  record : List (Nat × ParticleSystem α)

variable {α : Type} [Scalar α] {law : PairLaw α} {ν : Type} [NeighborSource ν α]

instance Recorded.neighborSource : NeighborSource (Recorded ν α) α where
  refresh timestep system recorded :=
    ⟨NeighborSource.refresh timestep system recorded.source,
      recorded.record ++ [(timestep, system)]⟩
  mode recorded := NeighborSource.mode recorded.source
  size recorded := NeighborSource.size recorded.source
  neighbors recorded := NeighborSource.neighbors recorded.source

namespace Potential

/-- The potential over the source alone. -/
def withoutRecord (potential : Potential law (Recorded ν α)) : Potential law ν where
  source := potential.source.source
  shiftMode := potential.shiftMode
  table := potential.table
  results := potential.results
  computedFor := potential.computedFor

/-- The potential over the source with an empty record. -/
def recorded (potential : Potential law ν) : Potential law (Recorded ν α) where
  source := ⟨potential.source, []⟩
  shiftMode := potential.shiftMode
  table := potential.table
  results := potential.results
  computedFor := potential.computedFor

variable (potential : Potential law (Recorded ν α)) (timestep : Nat) (system : ParticleSystem α)

theorem computeForces_withoutRecord :
    potential.withoutRecord.computeForces timestep system =
      (potential.computeForces timestep system).map (·.mapState withoutRecord) := by
  have sameCheck : potential.withoutRecord.checkSystem system = potential.checkSystem system :=
    checkSystem_congr rfl system
  cases checked : potential.checkSystem system with
  | error error =>
      rw [checked] at sameCheck
      rw [computeForces_of_rejected checked, computeForces_of_rejected sameCheck]
      rfl
  | ok _ =>
      rw [checked] at sameCheck
      have sameResults : potential.withoutRecord.computedResults timestep system =
          potential.computedResults timestep system := rfl
      have sameSize :
          NeighborSource.size (potential.withoutRecord.refreshed timestep system).source =
            NeighborSource.size (potential.refreshed timestep system).source := rfl
      rw [computeForces_of_checked checked, computeForces_of_checked sameCheck, sameResults,
        sameSize]
      split
      · rfl
      · cases potential.computedResults timestep system <;> rfl

theorem compute_withoutRecord :
    potential.withoutRecord.compute timestep system =
      (potential.compute timestep system).map (·.mapState withoutRecord) := by
  rw [compute, compute, computeForces_withoutRecord]
  by_cases remembered : potential.computedFor = some timestep
  · rw [if_pos remembered]
    exact if_pos remembered
  · rw [if_neg remembered]
    refine (if_neg remembered).trans ?_
    rcases potential.computeForces timestep system with fault | ⟨answer | answer, state⟩ <;> rfl

theorem logValue_withoutRecord (quantity : String) :
    potential.withoutRecord.logValue quantity timestep system =
      (potential.logValue quantity timestep system).map (·.mapState withoutRecord) := by
  rw [logValue, logValue, compute_withoutRecord]
  by_cases known : quantity ∈ potential.logQuantities
  · rw [if_neg (Classical.not_not.2 known)]
    refine (if_neg (Classical.not_not.2 known)).trans ?_
    rcases potential.compute timestep system with fault | ⟨answer | answer, state⟩ <;> rfl
  · rw [if_pos known]
    exact if_pos known

end Potential

end Nonbonded
