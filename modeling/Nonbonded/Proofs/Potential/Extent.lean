import Nonbonded.Proofs.PairSum.Range
import Nonbonded.Proofs.Potential.Memory

/-!
# How many particles results are for

A computation that is carried out leaves an entry for every particle of its
system and no more, over any source and however the sum is shared between
workers.

A request that is answered from memory is not carried out, and the system that
comes with it is not looked at.  The results are those of the request that set
the remembered timestep, so they have an entry for every particle of the system
of that request.  Nothing is said here about direct computations of forces in
between.
-/

namespace Nonbonded

/-- The force, the energy and the virial of every particle below `size` can be
read, and there are no more. -/
structure Accumulators.IsFor {α : Type} (acc : Accumulators α) (size : Nat) : Prop where
  forces : acc.forces.size = size
  energies : acc.energies.size = size
  virials : acc.virials.size = size
  entry : ∀ particle < size, ∃ c, acc.entry particle = .ok c

theorem Accumulators.isFor_iff {α : Type} {acc : Accumulators α} {size : Nat} :
    acc.IsFor size ↔ acc.size = size := by
  constructor
  · intro extent
    rw [← acc.size_forces, extent.forces]
  · rintro rfl
    exact ⟨acc.size_forces, acc.size_energies, acc.size_virials,
      fun particle inRange => ⟨acc.entries[particle], entryAt_of_lt inRange⟩⟩

namespace Potential

variable {α : Type} [Scalar α] {law : PairLaw α} {ν : Type} [NeighborSource ν α]

/-! ## Computations that are carried out -/

/-- The results of a computation of forces have an entry for every particle of
the system. -/
theorem isFor_of_computeForces {potential produced : Potential law ν} {timestep : Nat}
    {system : ParticleSystem α}
    (computed : potential.computeForces timestep system = .ok (.done () produced)) :
    produced.results.IsFor system.size := by
  rcases computeForces_eq_done_iff.1 computed with ⟨-, -, results, summed, rfl⟩
  rw [Accumulators.isFor_iff]
  exact PairSum.size_of_total summed

/-- A request for results of a timestep that is done computes for that
timestep. -/
theorem compute_of_answered {potential after : Potential law ν} {request : Operation law ν}
    {timestep : Nat} {system : ParticleSystem α} (asks : request.AsksFor timestep system)
    {value : Option α} (answered : potential.perform request = .ok (.done value after)) :
    potential.compute timestep system = .ok (.done () after) := by
  cases asks with
  | compute =>
      rcases map_eq_ok_iff.1 answered with ⟨⟨answer, state⟩, computed, finished⟩
      cases answer with
      | error error => cases congrArg Reply.answer finished
      | ok _ =>
          cases congrArg Reply.state finished
          exact computed
  | logValue quantity =>
      rcases map_eq_ok_iff.1 answered with ⟨reply, asked, finished⟩
      rcases logValue_cases asked with ⟨-, rfl⟩ | ⟨-, ⟨answer, state⟩, computed, rfl⟩
      · cases congrArg Reply.answer finished
      · cases answer with
        | error error => cases congrArg Reply.answer finished
        | ok _ =>
            cases congrArg Reply.state finished
            exact computed

/-! ## Answers from memory -/

namespace Provenance

variable {start final : Potential law ν} {operations : List (Operation law ν)} {timestep : Nat}

theorem remembered (origin : Provenance start final operations timestep) :
    final.computedFor = some timestep := by
  rcases origin.remembers origin.after [] (List.append_nil _).symm with ⟨between, ran, remembered⟩
  rw [origin.continued] at ran
  cases ran
  exact remembered

/-- What the request computed and what was asked since do not depend on how the
run is read. -/
theorem produced_unique (first second : Provenance start final operations timestep) :
    first.produced.remember timestep = second.produced.remember timestep ∧
      first.after = second.after := by
  have before : first.before = second.before := before_unique first second
  have rest : first.call :: first.after = second.call :: second.after := by
    have same := first.split.symm.trans second.split
    rw [before] at same
    exact List.append_cancel_left same
  rw [List.cons.injEq] at rest
  rcases rest with ⟨call, after⟩
  refine ⟨?_, after⟩
  have performed := first.performed
  rw [before, call, second.performed] at performed
  exact (Except.ok.inj performed).symm

/-- Without direct computations since, the results are those of the request
that set the timestep. -/
theorem results_of_direct_eq_nil (origin : Provenance start final operations timestep)
    (initially : start.computedFor = none) (ran : start.run operations = .ok final)
    (undisturbed : origin.direct = []) : final.results = origin.produced.results := by
  rcases exists_provenance initially ran origin.remembered with ⟨other, results⟩
  rcases produced_unique origin other with ⟨produced, after⟩
  have sameDirect : other.direct = origin.direct := by
    rw [direct, direct, produced, after]
  have sameResults : (other.produced.remember timestep).results =
      (origin.produced.remember timestep).results := by
    rw [produced]
  rw [results, sameDirect, undisturbed]
  exact sameResults

end Provenance

/-- A request for results of a timestep that has to be carried out leaves an
entry for every particle of its system.  One that is answered from memory
changes nothing: as long as no forces were computed directly since the request
that set the timestep, the entries are those of the particles of that request's
system, so they are for the present system exactly when it has as many
particles. -/
theorem isFor_of_answered {typeCount : Nat} {source : ν} {start final : Potential law ν}
    (created : create law typeCount source = .ok start) {operations : List (Operation law ν)}
    (ran : start.run operations = .ok final) {request : Operation law ν} {timestep : Nat}
    {system : ParticleSystem α} (asks : request.AsksFor timestep system) {value : Option α}
    {after : Potential law ν}
    (answered : final.perform request = .ok (.done value after)) :
    (final.computedFor ≠ some timestep →
      after.results.IsFor system.size ∧ ∀ schedule shared,
        ((final.refreshed timestep system).pairSum system).sharedTotal
          (NeighborSource.neighbors (final.refreshed timestep system).source) schedule =
            .ok shared →
        shared.IsFor system.size) ∧
    (final.computedFor = some timestep →
      after = final ∧ Nonempty (Provenance start final operations timestep) ∧
        ∀ origin : Provenance start final operations timestep, origin.direct = [] →
          after.results.IsFor origin.system.size ∧
          (after.results.IsFor system.size ↔ system.size = origin.system.size)) := by
  have initially := computedFor_of_create created
  rcases compute_cases (compute_of_answered asks answered) with
    ⟨remembered, same⟩ | ⟨-, error, state, -, refused⟩ | ⟨forgotten, produced, forces, finished⟩
  · cases congrArg Reply.state same
    refine ⟨fun forgotten => absurd remembered forgotten, fun _ => ⟨rfl, ?_, ?_⟩⟩
    · rcases exists_provenance initially ran remembered with ⟨origin, -⟩
      exact ⟨origin⟩
    · intro origin undisturbed
      have extent : final.results.IsFor origin.system.size := by
        rw [origin.results_of_direct_eq_nil initially ran undisturbed]
        exact isFor_of_computeForces origin.recomputes.computed
      refine ⟨extent, ?_⟩
      rw [Accumulators.isFor_iff, Accumulators.isFor_iff.1 extent]
      exact eq_comm
  · cases congrArg Reply.answer refused
  · cases congrArg Reply.state finished
    have extent := isFor_of_computeForces forces
    refine ⟨fun _ => ⟨extent, ?_⟩, fun remembered => absurd remembered forgotten⟩
    intro schedule shared found
    rw [Accumulators.isFor_iff]
    exact PairSum.size_of_sharedTotal found

/-! ## A third particle -/

open ParticleSystem (trimer floatCube)

/-- The forces of a dimer are computed for the first timestep, and a trimer is
asked about for it and for the next one. -/
theorem isFor_of_answered_trimer :
    ∃ start final after, newRepulsion = .ok start ∧ start.run repulsion = .ok final ∧
      final.computedFor = some 1 ∧
      final.perform (.compute 1 (trimer floatCube 1)) = .ok (.done none final) ∧
      (Nonempty (Provenance start final repulsion 1) ∧
        ∀ origin : Provenance start final repulsion 1, origin.direct = [] →
          final.results.IsFor origin.system.size ∧
          (final.results.IsFor (trimer floatCube 1).size ↔
            (trimer floatCube 1).size = origin.system.size)) ∧
      final.perform (.compute 2 (trimer floatCube 1)) = .ok (.done none after) ∧
      after.results.IsFor (trimer floatCube 1).size := by
  have evaluated : (do
      let start ← newRepulsion
      let final ← start.run repulsion
      let reply ← final.perform (.compute 2 (trimer floatCube 1))
      return (final.computedFor, reply.answer.toOption)) = .ok (some 1, some none) := by
    decide +kernel
  rcases bind_eq_ok_iff.1 evaluated with ⟨start, created, evaluated⟩
  rcases bind_eq_ok_iff.1 evaluated with ⟨final, ran, evaluated⟩
  rcases bind_eq_ok_iff.1 evaluated with ⟨⟨answer, after⟩, computed, evaluated⟩
  have read : final.computedFor = some 1 ∧ answer.toOption = some none := by
    simpa using Except.ok.inj evaluated
  rcases read with ⟨remembered, done⟩
  cases answer with
  | error error => cases done
  | ok value =>
      cases done
      have answered : final.perform (.compute 1 (trimer floatCube 1)) = .ok (.done none final) :=
        map_eq_ok_iff.2 ⟨_, compute_of_remembered remembered _, rfl⟩
      have forgotten : final.computedFor ≠ some 2 := by
        rw [remembered]
        decide
      have fromMemory := (isFor_of_answered created ran (.compute 1 _) answered).2 remembered
      have carriedOut := (isFor_of_answered created ran (.compute 2 _) computed).1 forgotten
      exact ⟨start, final, after, created, ran, remembered, answered, fromMemory.2, computed,
        carriedOut.1⟩

/-- Within the timestep that was computed for a dimer, a trimer is answered for
too, but there are only two entries. -/
theorem no_entry_for_third_particle :
    ∃ start final, newRepulsion = .ok start ∧ start.run repulsion = .ok final ∧
      final.compute 1 (trimer floatCube 1) = .ok (.done () final) ∧
      (∃ energy, final.logValue "pair_lj_energy" 1 (trimer floatCube 1) =
        .ok (.done energy final)) ∧
      (trimer floatCube 1).size = 3 ∧ final.results.forces.size = 2 ∧
      final.results.energies.size = 2 ∧ final.results.virials.size = 2 ∧
      final.results.entry 2 = .error (.outOfRange 2 2) := by
  have evaluated : (do
      let start ← newRepulsion
      let final ← start.run repulsion
      return (final.computedFor, final.results.size)) = .ok (some 1, 2) := by
    decide +kernel
  rcases bind_eq_ok_iff.1 evaluated with ⟨start, created, evaluated⟩
  rcases bind_eq_ok_iff.1 evaluated with ⟨final, ran, evaluated⟩
  have read : final.computedFor = some 1 ∧ final.results.size = 2 := by
    simpa using Except.ok.inj evaluated
  rcases read with ⟨remembered, size⟩
  have computed := compute_of_remembered remembered (trimer floatCube 1)
  have known : "pair_lj_energy" ∈ final.logQuantities := List.mem_singleton.2 (by decide)
  have missing : final.results.entries[2]? = none :=
    Array.getElem?_eq_none (Nat.le_of_eq size)
  refine ⟨start, final, created, ran, computed, ⟨_, logValue_of_mem known computed⟩, rfl, ?_, ?_,
    ?_, ?_⟩
  · rw [Accumulators.size_forces, size]
  · rw [Accumulators.size_energies, size]
  · rw [Accumulators.size_virials, size]
  · rw [Accumulators.entry, entryAt, missing, ← size]
    rfl

end Potential

end Nonbonded
