import Mathlib.Data.List.Basic
import Nonbonded.Law.LennardJones
import Nonbonded.NeighborList
import Nonbonded.Proofs.ParticleSystem.Arrays
import Nonbonded.Proofs.Potential.Steps

/-!
# What a refused computation leaves

A computation can be refused before anything is touched, or once the source was
refreshed and turns out to cover another number of particles.  In either case
the settings, the results and the remembered timestep are as before, whichever
of the three requests for a computation was refused.

A refreshed neighbor list covers every particle, so over one the second refusal
does not occur and a refused computation changes nothing at all.
-/

namespace Nonbonded.Potential

variable {α : Type} [Scalar α] {law : PairLaw α} {ν : Type}

/-- A system that is refused has too many types, or its box is too small. -/
theorem checkSystem_eq_error {potential : Potential law ν} {system : ParticleSystem α}
    {error : Error α} (rejected : potential.checkSystem system = .error error) :
    error = .typeCountMismatch system.typeCount potential.typeCount ∨
      error = .boxTooSmall system.box.minHalfLength.1 system.box.minHalfLength.2
        potential.maxCutoff := by
  unfold checkSystem at rejected
  split at rejected
  · cases rejected
    exact .inl rfl
  · dsimp only at rejected
    split at rejected
    · cases rejected
      exact .inr rfl
    · cases rejected

variable [NeighborSource ν α]

/-- A request for a computation is refused with an error, in a state that it
leaves. -/
inductive Refuses (potential : Potential law ν) (timestep : Nat) (system : ParticleSystem α)
    (error : Error α) (after : Potential law ν) : Prop
  | computeForces (refused : potential.computeForces timestep system = .ok (.refuse error after))
  | compute (refused : potential.compute timestep system = .ok (.refuse error after))
  | logValue (quantity : String)
      (refused : potential.logValue quantity timestep system = .ok (.refuse error after))

variable {potential after : Potential law ν} {timestep : Nat} {system : ParticleSystem α}
  {error : Error α}

theorem computeForces_of_refused_compute
    (refused : potential.compute timestep system = .ok (.refuse error after)) :
    potential.computeForces timestep system = .ok (.refuse error after) := by
  rcases compute_cases refused with
    ⟨_, finished⟩ | ⟨_, _, _, forces, same⟩ | ⟨_, _, _, finished⟩
  · cases congrArg Reply.answer finished
  · rw [forces, same]
  · cases congrArg Reply.answer finished

/-- Asking for a quantity is refused for its name, or as the computation of
forces is. -/
theorem computeForces_of_refused_logValue {quantity : String}
    (refused : potential.logValue quantity timestep system = .ok (.refuse error after)) :
    (error = .unknownQuantity quantity potential.logQuantities ∧ after = potential) ∨
      potential.computeForces timestep system = .ok (.refuse error after) := by
  rcases logValue_cases refused with ⟨_, same⟩ | ⟨_, ⟨answer, state⟩, computes, same⟩
  · cases same
    exact .inl ⟨rfl, rfl⟩
  · cases answer with
    | error reason =>
        cases same
        exact .inr (computeForces_of_refused_compute computes)
    | ok _ => cases congrArg Reply.answer same

/-- The two kinds of refusal: before anything is touched, for a reason that is
not the number of listed particles, or after the source was refreshed to
another number of particles. -/
theorem Refuses.cases (refused : potential.Refuses timestep system error after) :
    (after = potential ∧ ∀ particles listed, error ≠ .particleCountMismatch particles listed) ∨
      (after = potential.refreshed timestep system ∧
        NeighborSource.size (potential.refreshed timestep system).source ≠ system.size) := by
  have ofForces : potential.computeForces timestep system = .ok (.refuse error after) →
      (after = potential ∧ ∀ particles listed, error ≠ .particleCountMismatch particles listed) ∨
        (after = potential.refreshed timestep system ∧
          NeighborSource.size (potential.refreshed timestep system).source ≠ system.size) := by
    intro forces
    rcases computeForces_cases forces with
      ⟨_, rejected, same⟩ | ⟨_, same, different⟩ | ⟨_, _, _, _, finished⟩
    · cases same
      refine .inl ⟨rfl, fun particles listed => ?_⟩
      rcases checkSystem_eq_error rejected with rfl | rfl <;> exact nofun
    · cases same
      exact .inr ⟨rfl, different⟩
    · cases congrArg Reply.answer finished
  cases refused with
  | computeForces forces => exact ofForces forces
  | compute refused => exact ofForces (computeForces_of_refused_compute refused)
  | logValue quantity refused =>
      rcases computeForces_of_refused_logValue refused with ⟨rfl, rfl⟩ | forces
      · exact .inl ⟨rfl, nofun⟩
      · exact ofForces forces

/-- A refused computation leaves the table, the shift mode, the results and the
remembered timestep as they were, over any source; over a neighbor list it
leaves everything as it was, and is never refused for the number of listed
particles. -/
theorem unchanged_of_refused :
    (∀ (ν : Type) [NeighborSource ν α] (potential after : Potential law ν) (timestep : Nat)
      (system : ParticleSystem α) (error : Error α),
      potential.Refuses timestep system error after →
        after.table = potential.table ∧ after.shiftMode = potential.shiftMode ∧
          after.results = potential.results ∧ after.computedFor = potential.computedFor) ∧
    (∀ (potential after : Potential law (NeighborList α)) (timestep : Nat)
      (system : ParticleSystem α) (error : Error α),
      potential.Refuses timestep system error after →
        after = potential ∧
          ∀ particles listed, error ≠ .particleCountMismatch particles listed) := by
  constructor
  · intro ν _ potential after timestep system error refused
    rcases refused.cases with ⟨rfl, _⟩ | ⟨rfl, _⟩
    · exact ⟨rfl, rfl, rfl, rfl⟩
    · exact ⟨rfl, rfl, rfl, rfl⟩
  · intro potential after timestep system error refused
    rcases refused.cases with untouched | ⟨_, different⟩
    · exact untouched
    · exact absurd (potential.source.size_lists_refresh timestep system) different

open ParticleSystem (dimer floatCube)

/-- The forces of a dimer are computed, and then a cutoff is set that its box
does not hold. -/
def outgrown : List (Operation (PairLaw.lennardJones : PairLaw Float) (NeighborList Float)) :=
  [.setParams 0 0 ⟨1, 1, 1⟩, .setCutoff 0 0 2, .computeForces 1 (dimer floatCube 1),
    .setCutoff 0 0 6]

theorem unchanged_of_refused_outgrown :
    ∃ start final error after, create (PairLaw.lennardJones : PairLaw Float) 1
        (NeighborList.create 2 0.5 .half) = .ok start ∧
      start.run outgrown = .ok final ∧ final.results.size = 2 ∧
      final.Refuses 2 (dimer floatCube 1) error after ∧
      (after.table = final.table ∧ after.shiftMode = final.shiftMode ∧
        after.results = final.results ∧ after.computedFor = final.computedFor) ∧
      after = final ∧ ∀ particles listed, error ≠ .particleCountMismatch particles listed := by
  have evaluated : (do
      let start ← create (PairLaw.lennardJones : PairLaw Float) 1 (NeighborList.create 2 0.5 .half)
      let final ← start.run outgrown
      let reply ← final.logValue "pair_lj_energy" 2 (dimer floatCube 1)
      return (final.results.size, reply.answer.isOk)) = .ok (2, false) := by
    decide +kernel
  obtain ⟨start, created, evaluated⟩ := bind_eq_ok_iff.1 evaluated
  obtain ⟨final, ran, evaluated⟩ := bind_eq_ok_iff.1 evaluated
  obtain ⟨⟨answer, after⟩, asked, evaluated⟩ := bind_eq_ok_iff.1 evaluated
  obtain ⟨computed, rejected⟩ : final.results.size = 2 ∧ answer.isOk = false := by
    simpa using Except.ok.inj evaluated
  cases answer with
  | ok _ => cases rejected
  | error error =>
      have refused : final.Refuses 2 (dimer floatCube 1) error after := .logValue _ asked
      exact ⟨start, final, error, after, created, ran, computed, refused,
        unchanged_of_refused.1 _ final after 2 (dimer floatCube 1) error refused,
        unchanged_of_refused.2 final after 2 (dimer floatCube 1) error refused⟩

end Nonbonded.Potential
