import Nonbonded.Proofs.NeighborList.Origin
import Nonbonded.Proofs.Potential.Safety

/-!
# What is left of earlier computations

Two memories are stacked: the potential remembers for which timestep its
results may be handed out again, and its neighbor list for which timestep its
lists are kept.  Dropping the first does not touch the second.

So a computation after the remembered timestep was dropped is that of a new
potential with the same settings and a new list, as long as the list has to
rebuild.  When the list still keeps its lists for the timestep, the computation
reads lists of a system that was presented for this timestep earlier, and is
that of a new potential whose new list was refreshed from that system.  Nothing
else of the earlier run is left.
-/

namespace Nonbonded.Potential

variable {α : Type} [Scalar α] {law : PairLaw α}

/-! ## Histories over a neighbor list -/

/-- Whether a request changes the source from outside. -/
def Operation.isEdit {ν : Type} : Operation law ν → Bool
  | .editSource _ => true
  | _ => false

/-- A step in the history of a potential over a neighbor list: a new list takes
the place of the old one, or the list is edited, or the potential is asked
something.  A list that was in use before the potential was made is a history
that begins with the edits of the list. -/
inductive Step (law : PairLaw α) where
  | replaceList (cutoff buffer : α) (mode : StorageMode)
  | editList (change : NeighborList.Edit α)
  | ask (operation : Operation law (NeighborList α)) (asks : operation.isEdit = false)

namespace Step

/-- The request that a step is. -/
def operation : Step law → Operation law (NeighborList α)
  | .replaceList cutoff buffer mode => .editSource fun _ => .create cutoff buffer mode
  | .editList change => .editSource fun list => list.edit change
  | .ask operation _ => operation

/-- The steps that may hand a system to the list, at a timestep. -/
inductive Presents : Step law → Nat → ParticleSystem α → Prop
  | refresh (timestep : Nat) (system : ParticleSystem α) :
      Presents (.editList (.refresh timestep system)) timestep system
  | ask {operation : Operation law (NeighborList α)} (asks : operation.isEdit = false)
      {timestep : Nat} {system : ParticleSystem α}
      (presents : operation.Presents timestep system) :
      Presents (.ask operation asks) timestep system

end Step

variable {presented : Nat → ParticleSystem α → Prop}

/-- One step: lists that are kept for a timestep were scanned from a system
presented for it. -/
theorem builtFrom_of_perform {potential : Potential law (NeighborList α)}
    (origin : potential.source.BuiltFrom presented) {step : Step law}
    (shown : ∀ timestep system, step.Presents timestep system → presented timestep system)
    {reply : Reply (Error α) (Option α) (Potential law (NeighborList α))}
    (performed : potential.perform step.operation = .ok reply) :
    reply.state.source.BuiltFrom presented := by
  cases step with
  | replaceList cutoff buffer mode =>
      cases performed
      exact NeighborList.builtFrom_of_forgotten rfl
  | editList change =>
      cases performed
      apply NeighborList.builtFrom_edit origin
      rintro timestep system rfl
      exact shown timestep system (.refresh timestep system)
  | ask operation asks =>
      rcases source_of_perform performed with
        same | ⟨timestep, system, presents, refreshed⟩ | ⟨change, rfl, -⟩
      · rw [same]
        exact origin
      · rw [refreshed]
        exact NeighborList.builtFrom_refresh origin (shown timestep system (.ask asks presents))
      · cases asks

/-- A history: lists that are kept for a timestep were scanned from a system
presented for it. -/
theorem builtFrom_of_run {start final : Potential law (NeighborList α)}
    (origin : start.source.BuiltFrom presented) {history : List (Step law)}
    (shown : ∀ step ∈ history, ∀ timestep system,
      step.Presents timestep system → presented timestep system)
    (ran : start.run (history.map Step.operation) = .ok final) :
    final.source.BuiltFrom presented := by
  induction history generalizing start with
  | nil =>
      cases ran
      exact origin
  | cons step rest inductionHypothesis =>
      rcases run_cons_eq_ok_iff.1 ran with ⟨reply, performed, continued⟩
      have kept := builtFrom_of_perform origin (shown step List.mem_cons_self) performed
      apply inductionHypothesis kept _ continued
      intro later member
      exact shown later (List.mem_cons_of_mem step member)

/-! ## What a computation reads -/

section Reading

variable {ν : Type} [NeighborSource ν α] {left right after : Potential law ν} {timestep : Nat}
  {system : ParticleSystem α}

/-- A computation for a timestep and a system is done and leaves a state.
Sharing the sum between workers gives what it gives in that state, whatever the
schedule. -/
structure Arrives (potential : Potential law ν) (timestep : Nat) (system : ParticleSystem α)
    (after : Potential law ν) : Prop where
  computed : potential.compute timestep system = .ok (.done () after)
  shared : ∀ schedule : Schedule,
    ((potential.refreshed timestep system).pairSum system).sharedTotal
        (NeighborSource.neighbors (potential.refreshed timestep system).source) schedule =
      (after.pairSum system).sharedTotal (NeighborSource.neighbors after.source) schedule

/-- A computation reads the table, the shift mode and the refreshed source, and
nothing else. -/
theorem arrives_of_compute (computed : left.compute timestep system = .ok (.done () after))
    (leftForgotten : left.computedFor = none) (rightForgotten : right.computedFor = none)
    (table : left.table = right.table) (shiftMode : left.shiftMode = right.shiftMode)
    (source : NeighborSource.refresh timestep system left.source =
      NeighborSource.refresh timestep system right.source) :
    right.Arrives timestep system after := by
  rcases compute_cases computed with
    ⟨remembered, _⟩ | ⟨_, error, state, _, refused⟩ | ⟨_, produced, forces, finished⟩
  · rw [leftForgotten] at remembered
    cases remembered
  · cases congrArg Reply.answer refused
  · rcases computeForces_eq_done_iff.1 forces with ⟨checked, sized, results, summed, rfl⟩
    cases congrArg Reply.state finished
    have read : right.refreshed timestep system =
        { left.refreshed timestep system with
          results := right.results
          computedFor := right.computedFor } := by
      simp only [refreshed, table, shiftMode, source]
    have done : right.computeForces timestep system =
        .ok (.done () { right.refreshed timestep system with results }) := by
      apply computeForces_eq_done_iff.2
      refine ⟨?_, ?_, results, ?_, rfl⟩
      · rw [← checkSystem_congr table, checked]
      · rw [read]
        exact sized
      · rw [computedResults, read]
        exact summed
    constructor
    · rw [compute_of_done (ne_some_of_new rightForgotten timestep) done, read]
      rfl
    · intro schedule
      rw [read]
      rfl

end Reading

/-! ## New potentials -/

/-- A new potential with the settings of another, and a new list with the radii
and the storage mode of the other's list. -/
def renewed (potential : Potential law (NeighborList α)) : Potential law (NeighborList α) where
  source := potential.source.renewed
  shiftMode := potential.shiftMode
  table := potential.table
  results := .empty
  computedFor := none

/-! ## After the remembered timestep was dropped -/

/-- The systems that a history presents for a timestep. -/
def PresentedBy (history : List (Step law)) (timestep : Nat) (system : ParticleSystem α) : Prop :=
  ∃ step ∈ history, step.Presents timestep system

/-- A computation after the remembered timestep was dropped is that of a new
potential with the same settings, when the list has to rebuild.  When it keeps
its lists, the computation is that of a new potential whose list was refreshed
from one system, of as many particles, that was presented for the timestep
earlier; and when box and positions of that system are the present ones, it is
again that of a new potential. -/
theorem arrives_renewed_of_invalidate {typeCount : Nat} {cutoff buffer : α} {mode : StorageMode}
    {start final after : Potential law (NeighborList α)}
    (created : create law typeCount (NeighborList.create cutoff buffer mode) = .ok start)
    {history : List (Step law)} (ran : start.run (history.map Step.operation) = .ok final)
    {timestep : Nat} {system : ParticleSystem α}
    (computed : final.invalidate.compute timestep system = .ok (.done () after)) :
    (final.source.isCurrent timestep system = false →
      final.renewed.Arrives timestep system after) ∧
    (final.source.isCurrent timestep system = true →
      ∃ earlier, PresentedBy history timestep earlier ∧ earlier.size = system.size ∧
        (final.renewed.editSource fun list => list.refresh timestep earlier).Arrives
          timestep system after ∧
        (earlier.box = system.box → earlier.positions = system.positions →
          final.renewed.Arrives timestep system after)) := by
  constructor
  · intro stale
    refine arrives_of_compute computed rfl rfl rfl rfl ?_
    calc
      final.source.refresh timestep system = final.source.build timestep system :=
        NeighborList.refresh_of_stale stale
      _ = final.source.renewed.refresh timestep system :=
        (NeighborList.refresh_renewed _ _ _).symm
  · intro current
    rcases NeighborList.isCurrent_iff.1 current with ⟨built, sized⟩
    have initially : start.source.BuiltFrom (PresentedBy history) := by
      rw [source_of_create created]
      exact NeighborList.builtFrom_of_forgotten rfl
    have origin : final.source.BuiltFrom (PresentedBy history) :=
      builtFrom_of_run initially (fun step member _ _ presents => ⟨step, member, presents⟩) ran
    rcases origin timestep built with ⟨earlier, presented, scanned⟩
    have rebuilt : final.source.renewed.refresh timestep earlier = final.source := by
      rw [NeighborList.refresh_renewed, NeighborList.build_eq_self built scanned]
    refine ⟨earlier, presented, ?_, ?_, ?_⟩
    · rw [← sized, scanned, NeighborList.size_scan]
    · refine arrives_of_compute computed rfl rfl rfl rfl ?_
      change final.source.refresh timestep system =
        (final.source.renewed.refresh timestep earlier).refresh timestep system
      rw [rebuilt]
    · intro box positions
      refine arrives_of_compute computed rfl rfl rfl rfl ?_
      change final.source.refresh timestep system =
        final.source.renewed.refresh timestep system
      rw [NeighborList.refresh_of_current current, NeighborList.refresh_renewed]
      refine (NeighborList.build_eq_self built ?_).symm
      rw [scanned, NeighborList.scan_congr box positions]

/-! ## Two particles that approach within a timestep -/

open ParticleSystem (dimer floatCube)

/-- Particles of unit size are set to repel each other within a distance of
two, and the forces of two of them at a distance of three are computed for the
first timestep. -/
def apart : List (Step (PairLaw.lennardJones : PairLaw Float)) :=
  [.ask (.setParams 0 0 ⟨1, 1, 0⟩) rfl, .ask (.setCutoff 0 0 2) rfl,
    .ask (.compute 1 (dimer floatCube 3)) rfl]

theorem arrives_renewed_of_invalidate_apart :
    ∃ start final after, create (PairLaw.lennardJones : PairLaw Float) 1
        (NeighborList.create 2 0.5 .half) = .ok start ∧
      start.run (apart.map Step.operation) = .ok final ∧
      final.invalidate.compute 1 (dimer floatCube 1) = .ok (.done () after) ∧
      final.source.isCurrent 1 (dimer floatCube 1) = true ∧
      ∃ earlier, PresentedBy apart 1 earlier ∧ earlier.size = (dimer floatCube 1).size ∧
        (final.renewed.editSource fun list => list.refresh 1 earlier).Arrives
          1 (dimer floatCube 1) after ∧
        (earlier.box = (dimer floatCube 1).box →
          earlier.positions = (dimer floatCube 1).positions →
          final.renewed.Arrives 1 (dimer floatCube 1) after) := by
  have evaluated : (do
      let start ← create (PairLaw.lennardJones : PairLaw Float) 1 (NeighborList.create 2 0.5 .half)
      let final ← start.run (apart.map Step.operation)
      let reply ← final.invalidate.compute 1 (dimer floatCube 1)
      return (final.source.isCurrent 1 (dimer floatCube 1), reply.answer.isOk)) =
        .ok (true, true) := by
    decide +kernel
  rcases bind_eq_ok_iff.1 evaluated with ⟨start, created, evaluated⟩
  rcases bind_eq_ok_iff.1 evaluated with ⟨final, ran, evaluated⟩
  rcases bind_eq_ok_iff.1 evaluated with ⟨⟨answer, after⟩, computed, evaluated⟩
  have read : final.source.isCurrent 1 (dimer floatCube 1) = true ∧ answer.isOk = true := by
    simpa using Except.ok.inj evaluated
  rcases read with ⟨current, done⟩
  cases answer with
  | error error => cases done
  | ok _ =>
      exact ⟨start, final, after, created, ran, computed, current,
        (arrives_renewed_of_invalidate created ran computed).2 current⟩

/-- The two particles approach each other to a distance of one.  Within the
timestep they are not listed, although the remembered timestep was dropped; a
new potential finds them. -/
theorem lists_kept_after_invalidate :
    ∃ start final after new, create (PairLaw.lennardJones : PairLaw Float) 1
        (NeighborList.create 2 0.5 .half) = .ok start ∧
      start.run (apart.map Step.operation) = .ok final ∧
      final.invalidate.compute 1 (dimer floatCube 1) = .ok (.done () after) ∧
      final.renewed.compute 1 (dimer floatCube 1) = .ok (.done () new) ∧
      after.results.totalEnergy = 0 ∧ new.results.totalEnergy = 4 ∧
      after.results ≠ new.results := by
  have evaluated : (do
      let start ← create (PairLaw.lennardJones : PairLaw Float) 1 (NeighborList.create 2 0.5 .half)
      let final ← start.run (apart.map Step.operation)
      let kept ← final.invalidate.compute 1 (dimer floatCube 1)
      let rebuilt ← final.renewed.compute 1 (dimer floatCube 1)
      return (kept.answer.isOk, rebuilt.answer.isOk, kept.state.results.totalEnergy,
        rebuilt.state.results.totalEnergy)) = .ok (true, true, 0, 4) := by
    decide +kernel
  rcases bind_eq_ok_iff.1 evaluated with ⟨start, created, evaluated⟩
  rcases bind_eq_ok_iff.1 evaluated with ⟨final, ran, evaluated⟩
  rcases bind_eq_ok_iff.1 evaluated with ⟨⟨keptAnswer, after⟩, kept, evaluated⟩
  rcases bind_eq_ok_iff.1 evaluated with ⟨⟨rebuiltAnswer, new⟩, rebuilt, evaluated⟩
  have read : keptAnswer.isOk = true ∧ rebuiltAnswer.isOk = true ∧
      after.results.totalEnergy = 0 ∧ new.results.totalEnergy = 4 := by
    simpa using Except.ok.inj evaluated
  rcases read with ⟨keptDone, rebuiltDone, keptEnergy, rebuiltEnergy⟩
  cases keptAnswer with
  | error error => cases keptDone
  | ok _ =>
      cases rebuiltAnswer with
      | error error => cases rebuiltDone
      | ok _ =>
          refine ⟨start, final, after, new, created, ran, kept, rebuilt, keptEnergy, rebuiltEnergy,
            ?_⟩
          intro same
          rw [same, rebuiltEnergy] at keptEnergy
          exact absurd keptEnergy (by decide)

end Nonbonded.Potential
