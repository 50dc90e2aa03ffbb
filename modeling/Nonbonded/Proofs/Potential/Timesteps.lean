import Nonbonded.Proofs.Potential.Extent
import Nonbonded.Proofs.Potential.Recording

/-!
# One computation for each timestep

Requests for the results of a timestep share a memory that holds a single
timestep.  As long as the timesteps never go back, that is enough: the first
request for a timestep finds another one remembered, or none, and is carried
out for its own system; until the next timestep comes up every request is
answered from memory, whatever system comes with it.

So the source is brought up to date and the forces are summed once for each
timestep that is asked for, and the energy of a timestep is the same however
often it is asked for.
-/

namespace Nonbonded.Potential

variable {α : Type} [Scalar α] {law : PairLaw α} {ν : Type}

/-! ## Requests for results -/

/-- A request for the results of a timestep: the forces of a system or, by its
name, a quantity. -/
structure Request (α : Type) [Scalar α] where
  quantity : Option String
  timestep : Nat
  system : ParticleSystem α

namespace Request

/-- The operation that makes the request. -/
def operation (request : Request α) : Operation law ν :=
  match request.quantity with
  | none => .compute request.timestep request.system
  | some quantity => .logValue quantity request.timestep request.system

theorem asksFor (request : Request α) :
    (request.operation : Operation law ν).AsksFor request.timestep request.system := by
  rcases request with ⟨_ | quantity, timestep, system⟩
  · exact .compute timestep system
  · exact .logValue quantity timestep system

/-- The answer to a request when every timestep has one energy. -/
def answer (request : Request α) (energy : Nat → α) : Option α :=
  request.quantity.map fun _ => energy request.timestep

/-- A request is the first of several for its timestep. -/
def IsFirst (request : Request α) (requests : List (Request α)) : Prop :=
  ∃ before after, requests = before ++ request :: after ∧
    ∀ previous ∈ before, previous.timestep ≠ request.timestep

end Request

/-- The timesteps of requests never go back. -/
def Ordered (requests : List (Request α)) : Prop :=
  requests.Pairwise fun first second => first.timestep ≤ second.timestep

variable [NeighborSource ν α]

/-- Requests are answered in order, each with a value and none with an
error. -/
inductive Answers : Potential law ν → List (Request α) → List (Option α) → Potential law ν → Prop
  | nil (potential : Potential law ν) : Answers potential [] [] potential
  | cons {potential between final : Potential law ν} {request : Request α} {value : Option α}
      {requests : List (Request α)} {values : List (Option α)}
      (answered : potential.perform request.operation = .ok (.done value between))
      (rest : Answers between requests values final) :
      Answers potential (request :: requests) (value :: values) final

/-- A computation for a timestep is carried out: the timestep was not
remembered, the source is brought up to date with the system, the forces of the
system are summed over it, and the timestep is remembered. -/
structure CarriedOut (before after : Potential law ν) (timestep : Nat)
    (system : ParticleSystem α) : Prop where
  forgotten : before.computedFor ≠ some timestep
  summed : before.computedResults timestep system = .ok after.results
  state : after =
    { before.refreshed timestep system with
      results := after.results
      computedFor := some timestep }

/-- A request is answered from memory, or it is carried out for its own system;
either way its timestep is the remembered one afterwards, and a quantity is
read off the results. -/
structure Answered (before after : Potential law ν) (request : Request α) (value : Option α) :
    Prop where
  computedFor : after.computedFor = some request.timestep
  value : value = request.quantity.map fun _ => after.results.totalEnergy
  work : (before.computedFor = some request.timestep ∧ after = before) ∨
    CarriedOut before after request.timestep request.system

variable {potential start earlier later final : Potential law ν} {request : Request α}
  {value : Option α} {requests before after : List (Request α)} {values : List (Option α)}

theorem value_of_perform
    (answered : potential.perform request.operation = .ok (.done value later)) :
    value = request.quantity.map fun _ => later.results.totalEnergy := by
  rcases request with ⟨_ | quantity, timestep, system⟩
  · rcases map_eq_ok_iff.1 answered with ⟨⟨_ | _, state⟩, _, finished⟩ <;> cases finished
    rfl
  · rcases map_eq_ok_iff.1 answered with ⟨reply, asked, finished⟩
    rcases logValue_cases asked with ⟨-, rfl⟩ | ⟨-, ⟨_ | _, state⟩, -, rfl⟩ <;> cases finished
    rfl

theorem answered_of_perform
    (answered : potential.perform request.operation = .ok (.done value later)) :
    Answered potential later request value := by
  have read := value_of_perform answered
  rcases compute_cases (compute_of_answered request.asksFor answered) with
    ⟨remembered, same⟩ | ⟨-, error, state, -, refused⟩ | ⟨forgotten, produced, forces, finished⟩
  · cases congrArg Reply.state same
    exact ⟨remembered, read, .inl ⟨remembered, rfl⟩⟩
  · cases congrArg Reply.answer refused
  · cases congrArg Reply.state finished
    rcases computeForces_eq_done_iff.1 forces with ⟨-, -, results, summed, rfl⟩
    exact ⟨rfl, read, .inr ⟨forgotten, summed, rfl⟩⟩

theorem Answers.run (answers : Answers start requests values final) :
    start.run (requests.map Request.operation) = .ok final := by
  induction answers with
  | nil => rfl
  | cons answered _ inductionHypothesis =>
      exact run_cons_eq_ok_iff.2 ⟨_, answered, inductionHypothesis⟩

/-- The answers to some requests and then others. -/
theorem Answers.split (answers : Answers start (before ++ request :: after) values final) :
    ∃ earlier later value beforeValues afterValues, Answers start before beforeValues earlier ∧
      earlier.perform request.operation = .ok (.done value later) ∧
      Answers later after afterValues final := by
  induction before generalizing start values with
  | nil =>
      cases answers with
      | cons answered rest => exact ⟨start, _, _, [], _, .nil start, answered, rest⟩
  | cons first others inductionHypothesis =>
      cases answers with
      | cons answered rest =>
          rcases inductionHypothesis rest with
            ⟨earlier, later, value, beforeValues, afterValues, left, middle, right⟩
          exact ⟨earlier, later, value, _, afterValues, .cons answered left, middle, right⟩

/-! ## The remembered timestep -/

/-- After requests were answered, the timestep of the last one is
remembered. -/
theorem Answers.computedFor (answers : Answers start requests values final) :
    final.computedFor = (requests.getLast?.map (·.timestep)).or start.computedFor := by
  induction answers with
  | nil => rfl
  | cons answered rest inductionHypothesis =>
      rw [inductionHypothesis, (answered_of_perform answered).computedFor, List.getLast?_cons]
      cases List.getLast? _ <;> rfl

/-- In order, a request is the first for its timestep exactly when that is not
the remembered one. -/
theorem Answers.forgotten_iff (answers : Answers start before values earlier)
    (initially : start.computedFor = none) (ordered : Ordered (before ++ request :: after)) :
    earlier.computedFor ≠ some request.timestep ↔
      ∀ previous ∈ before, previous.timestep ≠ request.timestep := by
  have remembered := answers.computedFor
  rw [initially, Option.or_none] at remembered
  rcases List.eq_nil_or_concat before with rfl | ⟨others, last, rfl⟩
  · simp [remembered]
  rw [List.concat_eq_append] at ordered remembered ⊢
  rw [List.getLast?_concat, Option.map_some] at remembered
  rw [remembered, ne_eq, Option.some.injEq]
  constructor
  · intro different previous member same
    -- Between two requests for one timestep there are only requests for it.
    have atMost : last.timestep ≤ request.timestep :=
      (List.pairwise_append.1 ordered).2.2 last (by simp) request List.mem_cons_self
    have atLeast : previous.timestep ≤ last.timestep := by
      rcases List.mem_append.1 member with inside | isLast
      · have orderedBefore := (List.pairwise_append.1 ordered).1
        exact (List.pairwise_append.1 orderedBefore).2.2 previous inside last (by simp)
      · exact Nat.le_of_eq (congrArg Request.timestep (List.mem_singleton.1 isLast))
    omega
  · intro first
    exact first last (by simp)

/-! ## Energies -/

/-- The energy of the results once all requests up to a timestep were
answered. -/
def energyUpTo (potential : Potential law ν) : List (Request α) → Nat → α
  | [], _ => potential.results.totalEnergy
  | request :: rest, timestep =>
      if request.timestep ≤ timestep then
        match potential.perform request.operation with
        | .ok reply => reply.state.energyUpTo rest timestep
        | .error _ => potential.results.totalEnergy
      else potential.results.totalEnergy

theorem energyUpTo_cons
    (answered : potential.perform request.operation = .ok (.done value later)) {timestep : Nat}
    (within : request.timestep ≤ timestep) :
    potential.energyUpTo (request :: requests) timestep = later.energyUpTo requests timestep := by
  rw [energyUpTo, if_pos within, answered]
  rfl

/-- The energy of the remembered timestep stays that of the results. -/
theorem Answers.energyUpTo_remembered (answers : Answers start requests values final)
    {timestep : Nat} (remembered : start.computedFor = some timestep)
    (behind : ∀ request ∈ requests, timestep ≤ request.timestep) :
    start.energyUpTo requests timestep = start.results.totalEnergy := by
  induction answers with
  | nil => rfl
  | @cons potential between final request value requests values answered rest
    inductionHypothesis =>
      rcases List.forall_mem_cons.1 behind with ⟨first, others⟩
      by_cases same : request.timestep = timestep
      · have work := (answered_of_perform answered).work
        rw [same] at work
        rcases work with ⟨-, unchanged⟩ | carriedOut
        · subst unchanged
          rw [energyUpTo_cons answered (Nat.le_of_eq same)]
          exact inductionHypothesis remembered others
        · exact absurd remembered carriedOut.forgotten
      · rw [energyUpTo, if_neg (by omega)]

theorem Answers.totalEnergy_eq (answers : Answers start (before ++ request :: after) values final)
    (ordered : Ordered (before ++ request :: after)) {beforeValues : List (Option α)}
    (reached : Answers start before beforeValues earlier)
    (answered : earlier.perform request.operation = .ok (.done value later)) :
    later.results.totalEnergy =
      start.energyUpTo (before ++ request :: after) request.timestep := by
  induction reached generalizing values with
  | nil potential =>
      cases answers with
      | cons same rest =>
          cases Except.ok.inj (answered.symm.trans same)
          rw [List.nil_append, energyUpTo_cons answered (Nat.le_refl _)]
          exact (rest.energyUpTo_remembered (answered_of_perform answered).computedFor
            (List.pairwise_cons.1 ordered).1).symm
  | cons first _ inductionHypothesis =>
      cases answers with
      | cons same rest =>
          cases Except.ok.inj (first.symm.trans same)
          rcases List.pairwise_cons.1 ordered with ⟨behind, later⟩
          rw [List.cons_append, energyUpTo_cons first (behind request (by simp))]
          exact inductionHypothesis rest later answered

theorem Answers.values_eq (answers : Answers start requests values final)
    (ordered : Ordered requests) :
    values = requests.map (·.answer (start.energyUpTo requests)) := by
  induction answers with
  | nil => rfl
  | @cons potential between final request value requests values answered rest
    inductionHypothesis =>
      rcases List.pairwise_cons.1 ordered with ⟨behind, later⟩
      have read := answered_of_perform answered
      rw [List.map_cons, List.cons.injEq]
      constructor
      · rw [read.value, Request.answer, energyUpTo_cons answered (Nat.le_refl _),
          rest.energyUpTo_remembered read.computedFor behind]
      · rw [inductionHypothesis later]
        apply List.map_congr_left
        intro other member
        rw [Request.answer, Request.answer, energyUpTo_cons answered (behind other member)]

/-! ## Refreshes of the source -/

/-- The requests that find another timestep remembered, or none. -/
def due (remembered : Option Nat) : List (Request α) → List (Request α)
  | [] => []
  | request :: rest =>
      if remembered = some request.timestep then due remembered rest
      else request :: due (some request.timestep) rest

theorem Answers.record {start final : Potential law (Recorded ν α)}
    (answers : Answers start requests values final) :
    final.source.record = start.source.record ++
      (due start.computedFor requests).map fun request => (request.timestep, request.system) := by
  induction answers with
  | nil => exact (List.append_nil _).symm
  | @cons potential between final request value requests values answered rest
    inductionHypothesis =>
      have read := answered_of_perform answered
      rw [inductionHypothesis, read.computedFor]
      rcases read.work with ⟨remembered, unchanged⟩ | carriedOut
      · rw [due, if_pos remembered, remembered, unchanged]
      · have refreshed : between.source.record =
            potential.source.record ++ [(request.timestep, request.system)] := by
          rw [carriedOut.state]
          rfl
        rw [due, if_neg carriedOut.forgotten, refreshed, List.map_cons, List.append_assoc,
          List.singleton_append]

omit [NeighborSource ν α] in
theorem Request.isFirst_cons_iff {first : Request α} {rest : List (Request α)} :
    request.IsFirst (first :: rest) ↔
      request = first ∨ first.timestep ≠ request.timestep ∧ request.IsFirst rest := by
  constructor
  · rintro ⟨_ | ⟨_, before⟩, after, split, earlier⟩
    · cases split
      exact .inl rfl
    · cases split
      rcases List.forall_mem_cons.1 earlier with ⟨different, others⟩
      exact .inr ⟨different, before, after, rfl, others⟩
  · rintro (rfl | ⟨different, before, after, rfl, others⟩)
    · exact ⟨[], rest, rfl, by simp⟩
    · exact ⟨first :: before, after, rfl, List.forall_mem_cons.2 ⟨different, others⟩⟩

theorem Request.IsFirst.mem (first : request.IsFirst requests) : request ∈ requests := by
  rcases first with ⟨before, after, rfl, -⟩
  simp

/-- In order, the requests that are due are the first ones for their
timesteps. -/
theorem mem_due_iff {remembered : Option Nat} (ordered : Ordered requests)
    (behind : ∀ timestep ∈ remembered, ∀ request ∈ requests, timestep ≤ request.timestep) :
    request ∈ due remembered requests ↔
      remembered ≠ some request.timestep ∧ request.IsFirst requests := by
  induction requests generalizing remembered with
  | nil => simp [due, Request.IsFirst]
  | cons first rest inductionHypothesis =>
      rcases List.pairwise_cons.1 ordered with ⟨firstBehind, later⟩
      rw [due, Request.isFirst_cons_iff]
      split
      · next same =>
          rw [inductionHypothesis later fun timestep given other member =>
            behind timestep given other (List.mem_cons_of_mem first member), same]
          constructor
          · rintro ⟨different, isFirst⟩
            exact ⟨different, .inr ⟨fun equal => different (congrArg some equal), isFirst⟩⟩
          · rintro ⟨different, rfl | ⟨-, isFirst⟩⟩
            · exact absurd rfl different
            · exact ⟨different, isFirst⟩
      · next different =>
          rw [List.mem_cons, inductionHypothesis later fun timestep given other member =>
            Option.some.inj given ▸ firstBehind other member]
          constructor
          · rintro (rfl | ⟨apart, isFirst⟩)
            · exact ⟨different, .inl rfl⟩
            · refine ⟨fun same => ?_, .inr ⟨fun equal => apart (congrArg some equal), isFirst⟩⟩
              -- A remembered timestep lies before the first request, so before
              -- all later ones.
              have beforeFirst := behind _ same first List.mem_cons_self
              have afterFirst := firstBehind request isFirst.mem
              exact different (same.trans (congrArg some (by omega)))
          · rintro ⟨-, rfl | ⟨apart, isFirst⟩⟩
            · exact .inl rfl
            · exact .inr ⟨fun same => apart (Option.some.inj same), isFirst⟩

theorem pairwise_due {remembered : Option Nat} (ordered : Ordered requests)
    (behind : ∀ timestep ∈ remembered, ∀ request ∈ requests, timestep ≤ request.timestep) :
    (due remembered requests).Pairwise fun first second => first.timestep < second.timestep := by
  induction requests generalizing remembered with
  | nil => exact .nil
  | cons first rest inductionHypothesis =>
      rcases List.pairwise_cons.1 ordered with ⟨firstBehind, later⟩
      rw [due]
      split
      · exact inductionHypothesis later fun timestep given other member =>
          behind timestep given other (List.mem_cons_of_mem first member)
      · have restBehind : ∀ timestep ∈ some first.timestep, ∀ other ∈ rest,
            timestep ≤ other.timestep := fun timestep given other member =>
          Option.some.inj given ▸ firstBehind other member
        refine List.pairwise_cons.2 ⟨fun other member => ?_, inductionHypothesis later restBehind⟩
        rcases (mem_due_iff later restBehind).1 member with ⟨apart, isFirst⟩
        have afterFirst := firstBehind other isFirst.mem
        have different : first.timestep ≠ other.timestep := fun same => apart (congrArg some same)
        omega

/-- A record has one entry for each timestep of some requests, in the order of
time, with the system of the first request for it. -/
structure OncePerTimestep (record : List (Nat × ParticleSystem α)) (requests : List (Request α)) :
    Prop where
  increasing : record.Pairwise fun first second => first.1 < second.1
  mem_iff : ∀ timestep system, (timestep, system) ∈ record ↔
    ∃ request : Request α, request.IsFirst requests ∧ request.timestep = timestep ∧
      request.system = system

theorem oncePerTimestep_due (ordered : Ordered requests) :
    OncePerTimestep ((due none requests).map fun request => (request.timestep, request.system))
      requests where
  increasing := List.pairwise_map.2 (pairwise_due ordered nofun)
  mem_iff timestep system := by
    have isDue : ∀ request, request ∈ due none requests ↔
        none ≠ some request.timestep ∧ request.IsFirst requests :=
      fun request => mem_due_iff ordered nofun
    simp only [List.mem_map, isDue, Prod.mk.injEq]
    constructor
    · rintro ⟨request, ⟨-, isFirst⟩, same⟩
      exact ⟨request, isFirst, same⟩
    · rintro ⟨request, isFirst, same⟩
      exact ⟨request, ⟨nofun, isFirst⟩, same⟩

theorem perform_withoutRecord (potential : Potential law (Recorded ν α)) (request : Request α) :
    potential.withoutRecord.perform request.operation =
      (potential.perform request.operation).map (·.mapState withoutRecord) := by
  rcases request with ⟨_ | quantity, timestep, system⟩
  · change (potential.withoutRecord.compute timestep system).map _ =
      ((potential.compute timestep system).map _).map _
    rw [compute_withoutRecord]
    rcases potential.compute timestep system with fault | ⟨answer | answer, state⟩ <;> rfl
  · change (potential.withoutRecord.logValue quantity timestep system).map _ =
      ((potential.logValue quantity timestep system).map _).map _
    rw [logValue_withoutRecord]
    rcases potential.logValue quantity timestep system with
      fault | ⟨answer | answer, state⟩ <;> rfl

/-- Requests are answered alike when a record is kept. -/
theorem Answers.exists_recorded (answers : Answers start requests values final)
    {recording : Potential law (Recorded ν α)} (same : recording.withoutRecord = start) :
    ∃ recorded, Answers recording requests values recorded ∧ recorded.withoutRecord = final := by
  induction answers generalizing recording with
  | nil => exact ⟨recording, .nil recording, same⟩
  | cons answered rest inductionHypothesis =>
      rw [← same, perform_withoutRecord] at answered
      rcases map_eq_ok_iff.1 answered with ⟨⟨answer, state⟩, performed, finished⟩
      cases finished
      rcases inductionHypothesis rfl with ⟨recorded, others, same⟩
      exact ⟨recorded, .cons performed others, same⟩

/-! ## Runs -/

/-- When requests whose timesteps never go back are all answered, starting with
no remembered timestep, every timestep has one energy, which all requests for
it are answered with.  A request is carried out, for its own system, when it is
the first for its timestep, and is answered from memory when it is not.  In
particular the source, when it keeps a record, is brought up to date once for
each timestep, with the system of the first request. -/
theorem computes_once_per_timestep (initially : start.computedFor = none)
    (ordered : Ordered requests) (answers : Answers start requests values final) :
    ∃ energy : Nat → α, values = requests.map (·.answer energy) ∧
      (∀ before request after, requests = before ++ request :: after → ∃ earlier later,
        start.run (before.map Request.operation) = .ok earlier ∧
        earlier.perform request.operation = .ok (.done (request.answer energy) later) ∧
        later.results.totalEnergy = energy request.timestep ∧
        ((∀ previous ∈ before, previous.timestep ≠ request.timestep) →
          CarriedOut earlier later request.timestep request.system) ∧
        ((∃ previous ∈ before, previous.timestep = request.timestep) →
          earlier.computedFor = some request.timestep ∧ later = earlier)) ∧
      ∃ recorded, Answers start.recorded requests values recorded ∧
        recorded.withoutRecord = final ∧ OncePerTimestep recorded.source.record requests := by
  refine ⟨start.energyUpTo requests, answers.values_eq ordered, ?_, ?_⟩
  · rintro before request after rfl
    rcases answers.split with
      ⟨earlier, later, value, beforeValues, afterValues, reached, answered, -⟩
    have read := answered_of_perform answered
    have energy := answers.totalEnergy_eq ordered reached answered
    have forgottenIff := reached.forgotten_iff initially ordered
    have isAnswer : value = request.answer (start.energyUpTo (before ++ request :: after)) := by
      rw [read.value, Request.answer, energy]
    refine ⟨earlier, later, reached.run, isAnswer ▸ answered, energy, ?_, ?_⟩
    · intro first
      exact read.work.resolve_left fun ⟨remembered, _⟩ => forgottenIff.2 first remembered
    · rintro ⟨previous, member, same⟩
      apply read.work.resolve_right
      intro carriedOut
      exact forgottenIff.1 carriedOut.forgotten previous member same
  · rcases answers.exists_recorded (rfl : start.recorded.withoutRecord = start) with
      ⟨recorded, others, same⟩
    refine ⟨recorded, others, same, ?_⟩
    have record := others.record
    have empty : start.recorded.computedFor = none := initially
    rw [empty] at record
    exact record ▸ oncePerTimestep_due ordered

/-! ## Two timesteps -/

/-- Whether requests are all answered, in order. -/
def answersAll (potential : Potential law ν) : List (Request α) → Bool
  | [] => true
  | request :: rest =>
      match potential.perform request.operation with
      | .ok ⟨.ok _, later⟩ => later.answersAll rest
      | _ => false

theorem exists_answers (all : potential.answersAll requests = true) :
    ∃ values final, Answers potential requests values final := by
  induction requests generalizing potential with
  | nil => exact ⟨[], potential, .nil potential⟩
  | cons request rest inductionHypothesis =>
      unfold answersAll at all
      split at all
      · next value later answered =>
          rcases inductionHypothesis all with ⟨values, final, others⟩
          exact ⟨_, final, .cons answered others⟩
      · cases all

open ParticleSystem (dimer trimer floatCube)

/-- The forces and the energy of two timesteps, with other systems in place of
the first one of each. -/
def repeatedRequests : List (Request Float) :=
  [⟨none, 1, dimer floatCube 1⟩, ⟨some "pair_lj_energy", 1, dimer floatCube 1.5⟩,
    ⟨some "pair_lj_energy", 1, trimer floatCube 1⟩,
    ⟨some "pair_lj_energy", 2, dimer floatCube 1.5⟩,
    ⟨none, 2, dimer floatCube 1⟩, ⟨some "pair_lj_energy", 2, dimer floatCube 1⟩]

theorem computes_once_per_timestep_repeated :
    ∃ new start values final, newRepulsion = .ok new ∧
      new.run [.setParams 0 0 ⟨1, 1, 0⟩, .setCutoff 0 0 2] = .ok start ∧
      start.computedFor = none ∧ Ordered repeatedRequests ∧
      Answers start repeatedRequests values final ∧
      ∃ energy : Nat → Float,
        values = [none, some (energy 1), some (energy 1), some (energy 2), none, some (energy 2)] ∧
        ∃ recorded, Answers start.recorded repeatedRequests values recorded ∧
          recorded.withoutRecord = final ∧
          OncePerTimestep recorded.source.record repeatedRequests ∧
          recorded.source.record = [(1, dimer floatCube 1), (2, dimer floatCube 1.5)] := by
  have evaluated : (do
      let new ← newRepulsion
      let start ← new.run [.setParams 0 0 ⟨1, 1, 0⟩, .setCutoff 0 0 2]
      return (start.computedFor, start.answersAll repeatedRequests)) = .ok (none, true) := by
    decide +kernel
  rcases bind_eq_ok_iff.1 evaluated with ⟨new, created, evaluated⟩
  rcases bind_eq_ok_iff.1 evaluated with ⟨start, ran, evaluated⟩
  have read : start.computedFor = none ∧ start.answersAll repeatedRequests = true := by
    simpa using Except.ok.inj evaluated
  rcases read with ⟨initially, all⟩
  rcases exists_answers all with ⟨values, final, answers⟩
  have ordered : Ordered repeatedRequests := by
    simp [Ordered, repeatedRequests]
  rcases computes_once_per_timestep initially ordered answers with
    ⟨energy, sameEnergies, -, recorded, others, same, once⟩
  have record := others.record
  have empty : start.recorded.computedFor = none := initially
  rw [empty] at record
  exact ⟨new, start, values, final, created, ran, initially, ordered, answers, energy,
    sameEnergies, recorded, others, same, once, record⟩

end Nonbonded.Potential
