import Mathlib.Data.List.Induction
import Nonbonded.Law.LennardJones
import Nonbonded.NeighborList
import Nonbonded.Proofs.ParticleSystem.Arrays
import Nonbonded.Proofs.Potential.Steps

/-!
# What a remembered timestep stands for

A remembered timestep was set by one request of the run, the last that had to
compute results for a timestep.  Between that request and now the timestep
stayed, but a direct computation of forces may have replaced the results.  So
the results are those of the request, or of the last direct computation since;
they are the request's exactly when no direct computation followed, or the last
one happened to leave the same results.
-/

namespace Nonbonded.Potential

variable {α : Type} [Scalar α] {law : PairLaw α} {ν : Type} [NeighborSource ν α]

/-- The results that a request leaves when it is a direct computation that is
done. -/
def Operation.directResults? (operation : Operation law ν)
    (reply : Reply (Error α) (Option α) (Potential law ν)) : Option (Accumulators α) :=
  match operation.isDirect, reply.answer with
  | true, .ok _ => some reply.state.results
  | _, _ => none

/-- The results that the direct computations of a run leave, in order. -/
def directResults (potential : Potential law ν) :
    List (Operation law ν) → List (Accumulators α)
  | [] => []
  | operation :: rest =>
      match potential.perform operation with
      | .ok reply => (operation.directResults? reply).toList ++ reply.state.directResults rest
      | .error _ => []

omit [NeighborSource ν α] in
theorem directResults?_of_spares {potential : Potential law ν} {operation : Operation law ν}
    {reply : Reply (Error α) (Option α) (Potential law ν)}
    (spares : Spares potential operation reply) : operation.directResults? reply = none := by
  cases direct : operation.isDirect with
  | false => simp only [Operation.directResults?, direct]
  | true =>
      obtain ⟨error, refused⟩ := spares.direct direct
      simp only [Operation.directResults?, direct, refused]

theorem directResults_append {potential between : Potential law ν}
    {first : List (Operation law ν)} (ran : potential.run first = .ok between)
    (rest : List (Operation law ν)) :
    potential.directResults (first ++ rest) =
      potential.directResults first ++ between.directResults rest := by
  induction first generalizing potential with
  | nil =>
      cases ran
      rfl
  | cons operation later inductionHypothesis =>
      obtain ⟨reply, performed, continued⟩ := run_cons_eq_ok_iff.1 ran
      simp only [List.cons_append, directResults, performed]
      rw [inductionHypothesis continued, List.append_assoc]

theorem directResults_singleton {potential : Potential law ν} {operation : Operation law ν}
    {reply : Reply (Error α) (Option α) (Potential law ν)}
    (performed : potential.perform operation = .ok reply) :
    potential.directResults [operation] = (operation.directResults? reply).toList := by
  simp only [directResults, performed, List.append_nil]

/-- A timestep stays remembered all through a run. -/
def Remembers (potential : Potential law ν) (timestep : Nat)
    (operations : List (Operation law ν)) : Prop :=
  ∀ first rest, operations = first ++ rest →
    ∃ between, potential.run first = .ok between ∧ between.computedFor = some timestep

theorem remembers_nil {potential : Potential law ν} {timestep : Nat}
    (remembered : potential.computedFor = some timestep) : potential.Remembers timestep [] := by
  intro first rest split
  obtain ⟨rfl, rfl⟩ := List.append_eq_nil_iff.1 split.symm
  exact ⟨potential, rfl, remembered⟩

theorem Remembers.append_singleton {potential final : Potential law ν} {timestep : Nat}
    {operations : List (Operation law ν)} (remembers : potential.Remembers timestep operations)
    {operation : Operation law ν} (ran : potential.run (operations ++ [operation]) = .ok final)
    (remembered : final.computedFor = some timestep) :
    potential.Remembers timestep (operations ++ [operation]) := by
  intro first rest split
  rcases List.eq_nil_or_concat rest with rfl | ⟨within, last, rfl⟩
  · rw [List.append_nil] at split
    subst split
    exact ⟨final, ran, remembered⟩
  · rw [List.concat_eq_append, ← List.append_assoc] at split
    obtain ⟨inside, -⟩ := List.append_inj_left' split rfl, List.append_inj_right' split rfl
    exact remembers first within inside

/-- Where the results of a remembered timestep come from: the request of the
run that set the timestep, what it computed, and the requests since, all
through which the timestep stayed. -/
structure Provenance (start final : Potential law ν) (operations : List (Operation law ν))
    (timestep : Nat) where
  before : List (Operation law ν)
  call : Operation law ν
  after : List (Operation law ν)
  split : operations = before ++ call :: after
  earlier : Potential law ν
  reached : start.run before = .ok earlier
  system : ParticleSystem α
  produced : Potential law ν
  recomputes : Recomputes earlier call timestep system produced
  performed : start.run (before ++ [call]) = .ok (produced.remember timestep)
  continued : (produced.remember timestep).run after = .ok final
  remembers : (produced.remember timestep).Remembers timestep after

namespace Provenance

variable {start final : Potential law ν} {operations : List (Operation law ν)} {timestep : Nat}

/-- The results that direct computations left since the timestep was set, in
order. -/
def direct (origin : Provenance start final operations timestep) : List (Accumulators α) :=
  (origin.produced.remember timestep).directResults origin.after

/-- The timestep was set by the last request of the run. -/
def ofLast {earlier : Potential law ν} (reached : start.run operations = .ok earlier)
    {call : Operation law ν} {system : ParticleSystem α} {produced : Potential law ν}
    (recomputes : Recomputes earlier call timestep system produced)
    (performed : start.run (operations ++ [call]) = .ok (produced.remember timestep)) :
    Provenance start (produced.remember timestep) (operations ++ [call]) timestep where
  before := operations
  call := call
  after := []
  split := rfl
  earlier := earlier
  reached := reached
  system := system
  produced := produced
  recomputes := recomputes
  performed := performed
  continued := rfl
  remembers := remembers_nil rfl

/-- The timestep was set earlier, and the last request of the run left it as it
was. -/
def extend (origin : Provenance start final operations timestep) {operation : Operation law ν}
    {reply : Reply (Error α) (Option α) (Potential law ν)}
    (performed : final.perform operation = .ok reply)
    (remembered : reply.state.computedFor = some timestep) :
    Provenance start reply.state (operations ++ [operation]) timestep where
  before := origin.before
  call := origin.call
  after := origin.after ++ [operation]
  split := by rw [← List.cons_append, ← List.append_assoc, ← origin.split]
  earlier := origin.earlier
  reached := origin.reached
  system := origin.system
  produced := origin.produced
  recomputes := origin.recomputes
  performed := origin.performed
  continued := run_append_eq_ok_iff.2
    ⟨final, origin.continued, run_singleton_eq_ok_iff.2 ⟨reply, performed, rfl⟩⟩
  remembers := origin.remembers.append_singleton
    (run_append_eq_ok_iff.2
      ⟨final, origin.continued, run_singleton_eq_ok_iff.2 ⟨reply, performed, rfl⟩⟩) remembered

theorem direct_extend (origin : Provenance start final operations timestep)
    {operation : Operation law ν} {reply : Reply (Error α) (Option α) (Potential law ν)}
    (performed : final.perform operation = .ok reply)
    (remembered : reply.state.computedFor = some timestep) :
    (origin.extend performed remembered).direct =
      origin.direct ++ (operation.directResults? reply).toList := by
  rw [direct, extend, directResults_append origin.continued, directResults_singleton performed]
  rfl

/-- Of two requests that set the timestep and after which it stayed, none comes
later. -/
theorem before_prefix (first second : Provenance start final operations timestep)
    {between : List (Operation law ν)} (longer : second.before = first.before ++ between)
    (rest : first.call :: first.after = between ++ second.call :: second.after) :
    between = [] := by
  rcases between with - | ⟨call, within⟩
  · rfl
  · -- The later request would find the timestep remembered.
    rw [List.cons_append, List.cons.injEq] at rest
    rcases rest with ⟨rfl, rest⟩
    obtain ⟨state, ran, remembered⟩ := first.remembers within _ rest
    have through : start.run second.before = .ok state := by
      rw [longer, List.append_cons]
      exact run_append_eq_ok_iff.2 ⟨_, first.performed, ran⟩
    rw [second.reached] at through
    cases through
    exact absurd remembered second.recomputes.forgotten

/-- Only one request of a run set the timestep that it remembers. -/
theorem before_unique (first second : Provenance start final operations timestep) :
    first.before = second.before := by
  have same : first.before ++ first.call :: first.after =
      second.before ++ second.call :: second.after :=
    first.split.symm.trans second.split
  rcases List.append_eq_append_iff.1 same with ⟨between, longer, rest⟩ | ⟨between, longer, rest⟩
  · rw [longer, before_prefix first second longer rest, List.append_nil]
  · rw [longer, before_prefix second first longer rest, List.append_nil]

end Provenance

omit [NeighborSource ν α] in
theorem computedFor_of_create {typeCount : Nat} {source : ν} {start : Potential law ν}
    (created : create law typeCount source = .ok start) : start.computedFor = none := by
  obtain ⟨table, _, finished⟩ := bind_eq_ok_iff.1 created
  cases finished
  rfl

/-- The results of a remembered timestep are those that the request which set
it computed, unless direct computations followed: then they are those of the
last one. -/
theorem exists_provenance {start final : Potential law ν} {operations : List (Operation law ν)}
    {timestep : Nat} (initially : start.computedFor = none)
    (ran : start.run operations = .ok final) (remembered : final.computedFor = some timestep) :
    ∃ origin : Provenance start final operations timestep,
      final.results = origin.direct.getLast?.getD origin.produced.results := by
  induction operations using List.reverseRecOn generalizing final with
  | nil =>
      cases ran
      rw [initially] at remembered
      cases remembered
  | append_singleton operations operation inductionHypothesis =>
      obtain ⟨between, earlier, stepped⟩ := run_append_eq_ok_iff.1 ran
      obtain ⟨reply, performed, rfl⟩ := run_singleton_eq_ok_iff.1 stepped
      rcases perform_cases performed with
        spares | ⟨_, _, produced, rfl, computed, rfl⟩ |
          ⟨wanted, system, produced, recomputes, reached⟩
      · have stayed : between.computedFor = some timestep := by
          rcases spares.computedFor with same | dropped
          · rw [← same, remembered]
          · rw [dropped] at remembered
            cases remembered
        obtain ⟨origin, results⟩ := inductionHypothesis earlier stayed
        refine ⟨origin.extend performed remembered, ?_⟩
        rw [origin.direct_extend, directResults?_of_spares spares, Option.toList_none,
          List.append_nil, spares.results, results]
        rfl
      · have stayed : between.computedFor = some timestep := by
          rw [← computedFor_of_computeForces computed]
          exact remembered
        obtain ⟨origin, _⟩ := inductionHypothesis earlier stayed
        refine ⟨origin.extend performed remembered, ?_⟩
        rw [origin.direct_extend]
        simp only [Operation.directResults?, Operation.isDirect, Reply.done, Option.toList_some,
          List.getLast?_concat, Option.getD_some]
      · rcases reply with ⟨answer, state⟩
        cases reached
        cases remembered
        exact ⟨.ofLast earlier recomputes ran, rfl⟩

/-- The results of a remembered timestep are those of the request that set it
exactly when no direct computation followed, or the last one left the same.
Whichever they are, every named quantity of the timestep is answered from
them. -/
theorem results_of_remembered {typeCount : Nat} {source : ν} {start final : Potential law ν}
    (created : create law typeCount source = .ok start) {operations : List (Operation law ν)}
    (ran : start.run operations = .ok final) {timestep : Nat}
    (remembered : final.computedFor = some timestep) :
    ∃ origin : Provenance start final operations timestep,
      final.results = origin.direct.getLast?.getD origin.produced.results ∧
      (final.results = origin.produced.results ↔
        ∀ last ∈ origin.direct.getLast?, last = origin.produced.results) ∧
      ∀ quantity ∈ final.logQuantities, ∀ system : ParticleSystem α,
        final.logValue quantity timestep system =
          .ok (.done (origin.direct.getLast?.getD origin.produced.results).totalEnergy final) := by
  obtain ⟨origin, results⟩ := exists_provenance (computedFor_of_create created) ran remembered
  refine ⟨origin, results, ?_, ?_⟩
  · rw [results]
    cases origin.direct.getLast? with
    | none => simp
    | some last => simp
  · intro quantity known system
    rw [logValue_of_mem known (compute_of_remembered remembered system), ← results]
    rfl

/-! ## Two repelling particles -/

open ParticleSystem (dimer floatCube)

/-- Particles of unit size are set to repel each other within a distance of
two, and the forces of two of them at a distance of one are computed for the
first timestep. -/
def repulsion : List (Operation (PairLaw.lennardJones : PairLaw Float) (NeighborList Float)) :=
  [.setParams 0 0 ⟨1, 1, 0⟩, .setCutoff 0 0 2, .compute 1 (dimer floatCube 1)]

/-- The new potential that is asked for it. -/
def newRepulsion :
    Except Fault (Potential (PairLaw.lennardJones : PairLaw Float) (NeighborList Float)) :=
  create .lennardJones 1 (.create 2 0.5 .half)

theorem results_of_remembered_dimer :
    ∃ start final, newRepulsion = .ok start ∧
      start.run repulsion = .ok final ∧
      final.computedFor = some 1 ∧
      ∃ origin : Provenance start final repulsion 1,
      final.results = origin.direct.getLast?.getD origin.produced.results ∧
      (final.results = origin.produced.results ↔
        ∀ last ∈ origin.direct.getLast?, last = origin.produced.results) ∧
      ∀ quantity ∈ final.logQuantities, ∀ system : ParticleSystem Float,
        final.logValue quantity 1 system =
          .ok (.done (origin.direct.getLast?.getD origin.produced.results).totalEnergy final) := by
  have evaluated : (do
      let start ← newRepulsion
      let final ← start.run repulsion
      return final.computedFor) = .ok (some 1) := by
    decide +kernel
  obtain ⟨start, created, evaluated⟩ := bind_eq_ok_iff.1 evaluated
  obtain ⟨final, ran, evaluated⟩ := bind_eq_ok_iff.1 evaluated
  have remembered : final.computedFor = some 1 := Except.ok.inj evaluated
  exact ⟨start, final, created, ran, remembered, results_of_remembered created ran remembered⟩

/-- After a computation for one timestep, a direct computation for another
replaces the results, yet the first timestep stays remembered and its energy is
answered from the new results. -/
theorem remembered_results_replaced :
    ∃ start remembering final, newRepulsion = .ok start ∧
      start.run repulsion = .ok remembering ∧
      remembering.computedFor = some 1 ∧ remembering.results.totalEnergy = 4 ∧
      remembering.run [.computeForces 2 (dimer floatCube 3)] = .ok final ∧
      final.computedFor = some 1 ∧ final.results ≠ remembering.results ∧
      final.logValue "pair_lj_energy" 1 (dimer floatCube 1) = .ok (.done 0 final) := by
  have evaluated : (do
      let start ← newRepulsion
      let remembering ← start.run repulsion
      let final ← remembering.run [.computeForces 2 (dimer floatCube 3)]
      return (remembering.computedFor, remembering.results.totalEnergy, final.computedFor,
        final.results.totalEnergy)) = .ok (some 1, 4, some 1, 0) := by
    decide +kernel
  obtain ⟨start, created, evaluated⟩ := bind_eq_ok_iff.1 evaluated
  obtain ⟨remembering, ran, evaluated⟩ := bind_eq_ok_iff.1 evaluated
  obtain ⟨final, replaced, evaluated⟩ := bind_eq_ok_iff.1 evaluated
  obtain ⟨remembered, energy, stayed, newEnergy⟩ :
      remembering.computedFor = some 1 ∧ remembering.results.totalEnergy = 4 ∧
        final.computedFor = some 1 ∧ final.results.totalEnergy = 0 := by
    simpa using Except.ok.inj evaluated
  refine ⟨start, remembering, final, created, ran, remembered, energy, replaced, stayed, ?_, ?_⟩
  · intro same
    rw [same, energy] at newEnergy
    exact absurd newEnergy (by decide)
  · have known : "pair_lj_energy" ∈ final.logQuantities := List.mem_singleton.2 (by decide)
    rw [logValue_of_mem known (compute_of_remembered stayed _), ← newEnergy]
    rfl

end Nonbonded.Potential
