import Nonbonded.Law.LennardJones
import Nonbonded.Proofs.NeighborList.Entries
import Nonbonded.Proofs.ParticleSystem.Arrays
import Nonbonded.Proofs.Potential.Steps

/-!
# Runs without a fault

A potential over a neighbor list never faults, whatever is asked of it in
whatever order, as long as its list is changed by edits only.  The lists may be
stale: a refresh keeps them when the timestep and the number of particles are
the same, so the system of a computation need not be the one they were built
from.  What holds all along is that lists name only particles that have a list.
A computation reads them only for a system of just as many particles, whose
types the table is checked to know.
-/

namespace Nonbonded.Potential

variable {α : Type} [Scalar α] {law : PairLaw α}

/-- A request whose change of the neighbor list, if it makes one, is a sequence
of edits. -/
def Operation.EditsOnly : Operation law (NeighborList α) → Prop
  | .editSource change =>
      ∃ edits : List (NeighborList.Edit α), change = fun list => edits.foldl NeighborList.edit list
  | _ => True

variable {potential : Potential law (NeighborList α)}

/-- The sums of a refreshed list in range, over all particles at once or shared
between workers. -/
theorem wellTyped_and_covers_refreshed (inRange : potential.source.InRange)
    {system : ParticleSystem α} (checked : potential.checkSystem system = .ok ())
    (timestep : Nat) :
    ((potential.refreshed timestep system).pairSum system).WellTyped ∧
      Covers (NeighborSource.neighbors (potential.refreshed timestep system).source)
        system.size := by
  constructor
  · exact (checkSystem_eq_ok_iff.1 checked).1
  · have covers := NeighborList.covers_of_inRange
      (NeighborList.inRange_refresh inRange timestep system)
    rw [NeighborList.size_lists_refresh] at covers
    exact covers

/-- Over refreshed lists that cover the system, only its checks can refuse a
computation of forces. -/
theorem exists_results_of_covers {system : ParticleSystem α}
    (checked : potential.checkSystem system = .ok ()) {timestep : Nat}
    (covers : Covers (NeighborSource.neighbors (potential.refreshed timestep system).source)
      system.size) :
    ∃ results, potential.computedResults timestep system = .ok results ∧
      potential.computeForces timestep system =
        .ok (.done () { potential.refreshed timestep system with results }) := by
  have typed : ((potential.refreshed timestep system).pairSum system).WellTyped :=
    (checkSystem_eq_ok_iff.1 checked).1
  rcases PairSum.exists_total typed covers with ⟨results, summed, -⟩
  have sized : NeighborSource.size (potential.refreshed timestep system).source = system.size :=
    potential.source.size_lists_refresh timestep system
  exact ⟨results, summed, computeForces_eq_done_iff.2 ⟨checked, sized, results, summed, rfl⟩⟩

/-- Over a neighbor list, only the checks of the system can refuse a
computation of forces. -/
theorem exists_done_of_checked (inRange : potential.source.InRange) {system : ParticleSystem α}
    (checked : potential.checkSystem system = .ok ()) (timestep : Nat) :
    ∃ final, potential.computeForces timestep system = .ok (.done () final) := by
  rcases wellTyped_and_covers_refreshed inRange checked timestep with ⟨-, covers⟩
  rcases exists_results_of_covers checked covers with ⟨results, -, computed⟩
  exact ⟨_, computed⟩

theorem exists_computeForces_of_inRange (inRange : potential.source.InRange) (timestep : Nat)
    (system : ParticleSystem α) :
    ∃ reply, potential.computeForces timestep system = .ok reply := by
  cases checked : potential.checkSystem system with
  | error error => exact ⟨_, computeForces_of_rejected checked timestep⟩
  | ok _ =>
      obtain ⟨final, computed⟩ := exists_done_of_checked inRange checked timestep
      exact ⟨_, computed⟩

theorem inRange_of_computeForces (inRange : potential.source.InRange) {timestep : Nat}
    {system : ParticleSystem α} {reply : Reply (Error α) Unit (Potential law (NeighborList α))}
    (computed : potential.computeForces timestep system = .ok reply) :
    reply.state.source.InRange := by
  rcases source_of_computeForces computed with same | refreshed
  · rw [same]
    exact inRange
  · rw [refreshed]
    exact NeighborList.inRange_refresh inRange timestep system

theorem inRange_of_compute (inRange : potential.source.InRange) {timestep : Nat}
    {system : ParticleSystem α} {reply : Reply (Error α) Unit (Potential law (NeighborList α))}
    (computed : potential.compute timestep system = .ok reply) :
    reply.state.source.InRange := by
  rcases compute_cases computed with
    ⟨_, rfl⟩ | ⟨_, error, state, forces, rfl⟩ | ⟨_, produced, forces, rfl⟩
  · exact inRange
  · exact inRange_of_computeForces inRange forces
  · have kept := inRange_of_computeForces inRange forces
    exact kept

/-- One request: it does not fault, and keeps the lists in range. -/
theorem exists_perform (inRange : potential.source.InRange)
    {operation : Operation law (NeighborList α)} (edits : operation.EditsOnly) :
    ∃ reply, potential.perform operation = .ok reply ∧ reply.state.source.InRange := by
  have configured : ∀ {after : Potential law (NeighborList α)},
      Reconfigures potential after → after.source.InRange := by
    intro after changed
    rw [changed.source]
    exact inRange
  cases operation with
  | setParams type1 type2 params =>
      exact ⟨_, rfl, configured (reconfigures_updateEntry _ _ _ _)⟩
  | setCutoff type1 type2 value =>
      exact ⟨_, rfl, configured (reconfigures_updateRadius _ _ _ _ _ _)⟩
  | setOnset type1 type2 value =>
      exact ⟨_, rfl, configured (reconfigures_updateRadius _ _ _ _ _ _)⟩
  | setShiftMode mode => exact ⟨_, rfl, inRange⟩
  | applyFile file typeNames => exact ⟨_, rfl, configured (reconfigures_applyFile _ _ _)⟩
  | invalidate => exact ⟨_, rfl, inRange⟩
  | editSource change =>
      rcases edits with ⟨changes, rfl⟩
      exact ⟨_, rfl, NeighborList.inRange_foldl_edit inRange changes⟩
  | compute timestep system =>
      obtain ⟨reply, computed⟩ :=
        exists_compute (exists_computeForces_of_inRange inRange timestep system)
      exact ⟨_, map_eq_ok_iff.2 ⟨reply, computed, rfl⟩, inRange_of_compute inRange computed⟩
  | computeForces timestep system =>
      obtain ⟨reply, computed⟩ := exists_computeForces_of_inRange inRange timestep system
      exact ⟨_, map_eq_ok_iff.2 ⟨reply, computed, rfl⟩,
        inRange_of_computeForces inRange computed⟩
  | logValue quantity timestep system =>
      obtain ⟨reply, asked⟩ :=
        exists_logValue quantity (exists_computeForces_of_inRange inRange timestep system)
      refine ⟨_, map_eq_ok_iff.2 ⟨reply, asked, rfl⟩, ?_⟩
      rcases logValue_cases asked with ⟨_, rfl⟩ | ⟨_, computed, computes, rfl⟩
      · exact inRange
      · have kept := inRange_of_compute inRange computes
        cases answer : computed.answer <;> simpa [Reply.andThen, answer] using kept

/-- A run of requests: it does not fault, and keeps the lists in range. -/
theorem exists_run (inRange : potential.source.InRange)
    {operations : List (Operation law (NeighborList α))}
    (edits : ∀ operation ∈ operations, operation.EditsOnly) :
    ∃ final, potential.run operations = .ok final ∧ final.source.InRange := by
  refine exists_foldlM_eq_ok
    (fun potential : Potential law (NeighborList α) => potential.source.InRange) ?_ inRange
  intro state holds operation member
  obtain ⟨reply, performed, kept⟩ := exists_perform holds (edits operation member)
  refine ⟨reply.state, ?_, kept⟩
  rw [performed]
  rfl

theorem source_of_create {ν : Type} {typeCount : Nat} {source : ν} {start : Potential law ν}
    (created : create law typeCount source = .ok start) : start.source = source := by
  obtain ⟨table, _, finished⟩ := bind_eq_ok_iff.1 created
  cases finished
  rfl

/-- Every run from a new potential ends without a fault, and in the state it
reaches neither a computation of forces, nor a computation for a timestep, nor
asking for a quantity faults, for any timestep and any system.  Nor does the
sum of a computation that passes the checks when it is shared between
workers. -/
theorem run_and_compute_without_fault {typeCount : Nat} {cutoff buffer : α} {mode : StorageMode}
    {earlier : List (NeighborList.Edit α)} {start : Potential law (NeighborList α)}
    (created : create law typeCount
      (earlier.foldl NeighborList.edit (.create cutoff buffer mode)) = .ok start)
    {operations : List (Operation law (NeighborList α))}
    (edits : ∀ operation ∈ operations, operation.EditsOnly) :
    ∃ final, start.run operations = .ok final ∧
      ∀ (timestep : Nat) (system : ParticleSystem α),
        (∃ reply, final.computeForces timestep system = .ok reply) ∧
        (∃ reply, final.compute timestep system = .ok reply) ∧
        (∀ quantity, ∃ reply, final.logValue quantity timestep system = .ok reply) ∧
        (final.checkSystem system = .ok () → ∀ schedule : Schedule,
          (∀ particle ∈ schedule.particles, particle < system.size) →
          ∃ results, ((final.refreshed timestep system).pairSum system).sharedTotal
            (NeighborSource.neighbors (final.refreshed timestep system).source) schedule =
              .ok results) := by
  have initially : start.source.InRange := by
    rw [source_of_create created]
    exact NeighborList.inRange_foldl_edit (NeighborList.inRange_create cutoff buffer mode) earlier
  obtain ⟨final, ran, inRange⟩ := exists_run initially edits
  refine ⟨final, ran, fun timestep system => ?_⟩
  have forces := exists_computeForces_of_inRange inRange timestep system
  refine ⟨forces, exists_compute forces, fun quantity => exists_logValue quantity forces, ?_⟩
  intro checked schedule particles
  obtain ⟨typed, covers⟩ := wellTyped_and_covers_refreshed inRange checked timestep
  obtain ⟨results, shared, _⟩ := PairSum.exists_sharedTotal typed covers particles
  exact ⟨results, shared⟩

open ParticleSystem (dimer floatCube)

/-- Requests that compute the forces of one dimer from the lists of another,
and go on in the other storage mode. -/
def staleRequests : List (Operation (PairLaw.lennardJones : PairLaw Float) (NeighborList Float)) :=
  [.setParams 0 0 ⟨1, 1, 1⟩, .setCutoff 0 0 2, .computeForces 1 (dimer floatCube 3),
    .editSource fun list =>
      [NeighborList.Edit.mode .full, .refresh 2 (dimer floatCube 1)].foldl NeighborList.edit list,
    .logValue "pair_lj_energy" 2 (dimer floatCube 3)]

theorem staleRequests_without_fault :
    ∃ start, create (PairLaw.lennardJones : PairLaw Float) 2
        ([NeighborList.Edit.refresh 1 (dimer floatCube 1)].foldl NeighborList.edit
          (.create 2 0.5 .half)) = .ok start ∧
      (∀ operation ∈ staleRequests, operation.EditsOnly) ∧
      ∃ final, start.run staleRequests = .ok final ∧
        ∀ (timestep : Nat) (system : ParticleSystem Float),
          (∃ reply, final.computeForces timestep system = .ok reply) ∧
          (∃ reply, final.compute timestep system = .ok reply) ∧
          (∀ quantity, ∃ reply, final.logValue quantity timestep system = .ok reply) ∧
          (final.checkSystem system = .ok () → ∀ schedule : Schedule,
            (∀ particle ∈ schedule.particles, particle < system.size) →
            ∃ results, ((final.refreshed timestep system).pairSum system).sharedTotal
              (NeighborSource.neighbors (final.refreshed timestep system).source) schedule =
                .ok results) := by
  have edits : ∀ operation ∈ staleRequests, operation.EditsOnly := by
    simp only [staleRequests, List.forall_mem_cons, List.not_mem_nil, false_imp_iff, implies_true,
      and_true, Operation.EditsOnly, true_and]
    exact ⟨_, rfl⟩
  obtain ⟨start, created⟩ : ∃ start, create (PairLaw.lennardJones : PairLaw Float) 2
      ([NeighborList.Edit.refresh 1 (dimer floatCube 1)].foldl NeighborList.edit
        (.create 2 0.5 .half)) = .ok start :=
    ⟨_, rfl⟩
  exact ⟨start, created, edits, run_and_compute_without_fault created edits⟩

end Nonbonded.Potential
