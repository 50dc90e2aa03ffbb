import Nonbonded.Proofs.Potential.Extent
import Nonbonded.Proofs.Potential.Installation
import Nonbonded.Proofs.Potential.Refusal

/-!
# What drops a remembered timestep

Every request that alters a setting, or gives access to the source, either is
refused and leaves the potential as it was, or is accepted and drops the
remembered timestep.  Computations never touch a setting.  So as long as a
timestep stays remembered, nothing was altered since the request that set it,
and the table and the shift mode are those it was computed with.

Conversely a refused request of any kind keeps the remembered timestep and the
results, and one that is answered from memory leaves everything as it is.
Nothing is said here about the particles that come with a request which is
answered from memory, nor about direct computations of forces in between.
-/

namespace Nonbonded.Potential

variable {α : Type} {law : PairLaw α} {ν : Type}

/-- Two potentials compute under the same settings. -/
structure SameSettings (before after : Potential law ν) : Prop where
  table : after.table = before.table
  shiftMode : after.shiftMode = before.shiftMode

/-- One potential has the settings, the results and the remembered timestep of
another. -/
structure Retains (before after : Potential law ν) : Prop extends SameSettings before after where
  results : after.results = before.results
  computedFor : after.computedFor = before.computedFor

/-! ## Requests that alter something -/

/-- A request is refused and leaves the potential as it was, or it is accepted
and no timestep is remembered. -/
def RefusedOrDropped {β : Type} (potential : Potential law ν)
    (reply : Reply (Error α) β (Potential law ν)) : Prop :=
  (∃ error, reply = .refuse error potential) ∨
    ∃ value after, reply = .done value after ∧ after.computedFor = none

variable {potential after final : Potential law ν}

theorem RefusedOrDropped.map {β γ : Type} {reply : Reply (Error α) β (Potential law ν)}
    (decided : potential.RefusedOrDropped reply) (f : β → γ) :
    potential.RefusedOrDropped (reply.map f) := by
  rcases decided with ⟨error, rfl⟩ | ⟨value, after, rfl, dropped⟩
  · exact .inl ⟨error, rfl⟩
  · exact .inr ⟨f value, after, rfl, dropped⟩

theorem refusedOrDropped_updateEntry (potential : Potential law ν) (type1 type2 : Nat)
    (change : PairEntry law → PairEntry law) :
    potential.RefusedOrDropped (potential.updateEntry type1 type2 change) := by
  unfold updateEntry
  dsimp only
  split
  · exact .inr ⟨(), _, rfl, rfl⟩
  · exact .inl ⟨_, rfl⟩

variable [Scalar α]

theorem refusedOrDropped_updateRadius (potential : Potential law ν) (radius : Radius)
    (type1 type2 : Nat) (value : α) (change : PairEntry law → PairEntry law) :
    potential.RefusedOrDropped (potential.updateRadius radius type1 type2 value change) := by
  unfold updateRadius
  split
  · exact refusedOrDropped_updateEntry potential type1 type2 change
  · exact .inl ⟨_, rfl⟩

theorem refusedOrDropped_applyFile (potential : Potential law ν)
    (file : ParameterFile α law.Params) (typeNames : Array String) :
    potential.RefusedOrDropped (potential.applyFile file typeNames) := by
  rcases applyFile_cases potential file typeNames with
    ⟨error, refused, -⟩ | ⟨settings, between, applied, -⟩
  · exact .inl ⟨error, refused⟩
  · exact .inr ⟨(), _, applied, rfl⟩

/-- The requests that alter a setting, drop the remembered timestep, or give
access to the source. -/
def Operation.alters : Operation law ν → Bool
  | .setParams _ _ _ | .setCutoff _ _ _ | .setOnset _ _ _ | .setShiftMode _ | .applyFile _ _
  | .invalidate | .editSource _ => true
  | .compute _ _ | .computeForces _ _ | .logValue _ _ _ => false

variable [NeighborSource ν α] {operations rest : List (Operation law ν)}
  {operation : Operation law ν} {reply : Reply (Error α) (Option α) (Potential law ν)}
  {timestep : Nat} {system : ParticleSystem α}

/-- A request that alters something is all or nothing, whichever it is. -/
theorem refusedOrDropped_of_alters (alters : operation.alters = true)
    (performed : potential.perform operation = .ok reply) : potential.RefusedOrDropped reply := by
  cases operation with
  | setParams type1 type2 params =>
      cases performed
      exact (refusedOrDropped_updateEntry _ _ _ _).map _
  | setCutoff type1 type2 value =>
      cases performed
      exact (refusedOrDropped_updateRadius _ _ _ _ _ _).map _
  | setOnset type1 type2 value =>
      cases performed
      exact (refusedOrDropped_updateRadius _ _ _ _ _ _).map _
  | setShiftMode mode =>
      cases performed
      exact .inr ⟨none, _, rfl, rfl⟩
  | applyFile file typeNames =>
      cases performed
      exact (refusedOrDropped_applyFile _ _ _).map _
  | invalidate =>
      cases performed
      exact .inr ⟨none, _, rfl, rfl⟩
  | editSource change =>
      cases performed
      exact .inr ⟨none, _, rfl, rfl⟩
  | compute timestep system => cases alters
  | computeForces timestep system => cases alters
  | logValue quantity timestep system => cases alters

/-! ## Computations -/

theorem sameSettings_of_computeForces {reply : Reply (Error α) Unit (Potential law ν)}
    (computed : potential.computeForces timestep system = .ok reply) :
    SameSettings potential reply.state := by
  rcases computeForces_cases computed with
    ⟨_, _, rfl⟩ | ⟨_, rfl, _⟩ | ⟨_, _, _, _, rfl⟩ <;> exact ⟨rfl, rfl⟩

theorem sameSettings_of_compute {reply : Reply (Error α) Unit (Potential law ν)}
    (computed : potential.compute timestep system = .ok reply) :
    SameSettings potential reply.state := by
  rcases compute_cases computed with
    ⟨_, rfl⟩ | ⟨_, error, state, forces, rfl⟩ | ⟨_, produced, forces, rfl⟩
  · exact ⟨rfl, rfl⟩
  · exact sameSettings_of_computeForces forces
  · have settings := sameSettings_of_computeForces forces
    exact ⟨settings.table, settings.shiftMode⟩

/-- A request that leaves a timestep remembered leaves the settings as they
were. -/
theorem sameSettings_of_remembered (performed : potential.perform operation = .ok reply)
    (remembered : reply.state.computedFor = some timestep) :
    SameSettings potential reply.state := by
  cases alters : operation.alters with
  | true =>
      rcases refusedOrDropped_of_alters alters performed with ⟨_, rfl⟩ | ⟨_, _, rfl, dropped⟩
      · exact ⟨rfl, rfl⟩
      · cases dropped.symm.trans remembered
  | false =>
      cases operation with
      | compute timestep system =>
          rcases map_eq_ok_iff.1 performed with ⟨computed, computes, rfl⟩
          exact sameSettings_of_compute computes
      | computeForces timestep system =>
          rcases map_eq_ok_iff.1 performed with ⟨computed, computes, rfl⟩
          exact sameSettings_of_computeForces computes
      | logValue quantity timestep system =>
          rcases map_eq_ok_iff.1 performed with ⟨answered, asked, rfl⟩
          rcases logValue_cases asked with ⟨_, rfl⟩ | ⟨_, ⟨answer, state⟩, computes, rfl⟩
          · exact ⟨rfl, rfl⟩
          · have settings := sameSettings_of_compute computes
            cases answer <;> exact settings
      | _ => cases alters

/-! ## While a timestep stays remembered -/

/-- The requests of a run altered nothing: each that would have was refused in
the state it met, and left that state as it was. -/
def Unaltered (potential : Potential law ν) (operations : List (Operation law ν)) : Prop :=
  ∀ first operation rest, operations = first ++ operation :: rest → operation.alters = true →
    ∃ between error, potential.run first = .ok between ∧
      between.perform operation = .ok (.refuse error between)

theorem Remembers.unaltered (remembers : potential.Remembers timestep operations) :
    potential.Unaltered operations := by
  intro first operation rest split alters
  rcases remembers first (operation :: rest) split with ⟨between, ran, -⟩
  rw [← List.singleton_append, ← List.append_assoc] at split
  rcases remembers (first ++ [operation]) rest split with ⟨later, ranLater, remembered⟩
  rcases run_append_eq_ok_iff.1 ranLater with ⟨same, ranSame, stepped⟩
  cases ran.symm.trans ranSame
  rcases run_singleton_eq_ok_iff.1 stepped with ⟨reply, performed, rfl⟩
  rcases refusedOrDropped_of_alters alters performed with ⟨error, rfl⟩ | ⟨_, _, rfl, dropped⟩
  · exact ⟨between, error, ran, performed⟩
  · cases dropped.symm.trans remembered

/-- A request that cannot be refused is not among those of a run that altered
nothing. -/
theorem Unaltered.not_mem (unaltered : potential.Unaltered operations)
    (alters : operation.alters = true)
    (accepted : ∀ between : Potential law ν, ∃ value after,
      between.perform operation = .ok (.done value after)) : operation ∉ operations := by
  intro member
  rcases List.append_of_mem member with ⟨first, rest, split⟩
  rcases unaltered first operation rest split alters with ⟨between, error, -, refused⟩
  rcases accepted between with ⟨value, after, done⟩
  rw [done] at refused
  cases congrArg Reply.answer (Except.ok.inj refused)

theorem Remembers.tail (remembers : potential.Remembers timestep (operation :: rest)) :
    ∃ reply, potential.perform operation = .ok reply ∧
      reply.state.computedFor = some timestep ∧ reply.state.Remembers timestep rest := by
  rcases remembers [operation] rest rfl with ⟨between, ran, remembered⟩
  rcases run_singleton_eq_ok_iff.1 ran with ⟨reply, performed, rfl⟩
  refine ⟨reply, performed, remembered, ?_⟩
  intro first later split
  rcases remembers (operation :: first) later (congrArg (operation :: ·) split) with
    ⟨between, ranFirst, kept⟩
  rcases run_cons_eq_ok_iff.1 ranFirst with ⟨same, performedSame, continued⟩
  cases performed.symm.trans performedSame
  exact ⟨between, continued, kept⟩

/-- The settings stay as long as a timestep stays remembered. -/
theorem Remembers.sameSettings (remembers : potential.Remembers timestep operations)
    (ran : potential.run operations = .ok final) : SameSettings potential final := by
  induction operations generalizing potential with
  | nil =>
      cases ran
      exact ⟨rfl, rfl⟩
  | cons operation rest inductionHypothesis =>
      rcases remembers.tail with ⟨reply, performed, remembered, later⟩
      rcases run_cons_eq_ok_iff.1 ran with ⟨same, performedSame, continued⟩
      cases performed.symm.trans performedSame
      have first := sameSettings_of_remembered performed remembered
      have others := inductionHypothesis later continued
      exact ⟨others.table.trans first.table, others.shiftMode.trans first.shiftMode⟩

/-! ## Refused requests -/

theorem Refuses.retains {error : Error α}
    (refused : potential.Refuses timestep system error after) : Retains potential after := by
  rcases refused.cases with ⟨rfl, -⟩ | ⟨rfl, -⟩ <;> exact ⟨⟨rfl, rfl⟩, rfl, rfl⟩

/-- A refused request, whichever it is, retains settings, results and
remembered timestep. -/
theorem retains_of_refused {error : Error α}
    (refused : potential.perform operation = .ok (.refuse error after)) :
    Retains potential after := by
  cases alters : operation.alters with
  | true =>
      rcases refusedOrDropped_of_alters alters refused with ⟨_, same⟩ | ⟨_, _, done, -⟩
      · cases congrArg Reply.state same
        exact ⟨⟨rfl, rfl⟩, rfl, rfl⟩
      · cases congrArg Reply.answer done
  | false =>
      cases operation with
      | compute timestep system => exact (Refuses.compute (eq_refuse_of_map refused)).retains
      | computeForces timestep system =>
          exact (Refuses.computeForces (eq_refuse_of_map refused)).retains
      | logValue quantity timestep system =>
          exact (Refuses.logValue quantity (eq_refuse_of_map refused)).retains
      | _ => cases alters

/-! ## Answers from memory -/

/-- A request for results of the remembered timestep leaves the potential as it
is, also when it asks for an unknown quantity. -/
theorem exists_answer_of_remembered {request : Operation law ν}
    (asks : request.AsksFor timestep system) (remembered : potential.computedFor = some timestep) :
    ∃ answer, potential.perform request = .ok ⟨answer, potential⟩ := by
  have computed := compute_of_remembered remembered system
  cases asks with
  | compute => exact ⟨_, map_eq_ok_iff.2 ⟨_, computed, rfl⟩⟩
  | logValue quantity =>
      by_cases known : quantity ∈ potential.logQuantities
      · exact ⟨_, map_eq_ok_iff.2 ⟨_, logValue_of_mem known computed, rfl⟩⟩
      · exact ⟨_, map_eq_ok_iff.2 ⟨_, if_pos known, rfl⟩⟩

/-- A request for results that is answered, and for which none are computed, is
for the remembered timestep. -/
theorem remembered_of_recalled {request : Operation law ν} {value : Option α}
    (asks : request.AsksFor timestep system)
    (answered : potential.perform request = .ok (.done value after))
    (recalled : ∀ produced, ¬Recomputes potential request timestep system produced) :
    potential.computedFor = some timestep := by
  rcases compute_cases (compute_of_answered asks answered) with
    ⟨remembered, -⟩ | ⟨-, _, _, -, refused⟩ | ⟨forgotten, produced, forces, -⟩
  · exact remembered
  · cases congrArg Reply.answer refused
  · exact absurd ⟨asks, forgotten, forces⟩ (recalled produced)

/-- When a request is answered without computing anything, nothing was altered
since the request that set the remembered timestep: every setter and every file
was refused since, the timestep was not dropped and the source not accessed,
and table and shift mode are those of the computation.  The answer changes
nothing.  Conversely a refused request retains settings, results and remembered
timestep, and one for the remembered timestep leaves everything as it is. -/
theorem unaltered_since_computed {typeCount : Nat} {source : ν} {start final : Potential law ν}
    (created : create law typeCount source = .ok start) {operations : List (Operation law ν)}
    (ran : start.run operations = .ok final) :
    (∀ request timestep system value after,
      request.AsksFor timestep system → final.perform request = .ok (.done value after) →
      (∀ produced, ¬Recomputes final request timestep system produced) →
      after = final ∧ Nonempty (Provenance start final operations timestep) ∧
        ∀ origin : Provenance start final operations timestep,
          (origin.produced.remember timestep).Unaltered origin.after ∧
          (∀ mode, .setShiftMode mode ∉ origin.after) ∧ .invalidate ∉ origin.after ∧
          (∀ change, .editSource change ∉ origin.after) ∧
          SameSettings origin.produced final) ∧
    (∀ request error after, final.perform request = .ok (.refuse error after) →
      Retains final after) ∧
    (∀ request timestep system, request.AsksFor timestep system →
      final.computedFor = some timestep →
        ∃ answer, final.perform request = .ok ⟨answer, final⟩) := by
  constructor
  · intro request timestep system value after asks answered recalled
    have remembered := remembered_of_recalled asks answered recalled
    refine ⟨?_, ?_, ?_⟩
    · rcases exists_answer_of_remembered asks remembered with ⟨answer, same⟩
      exact congrArg Reply.state (Except.ok.inj (answered.symm.trans same))
    · rcases exists_provenance (computedFor_of_create created) ran remembered with ⟨origin, -⟩
      exact ⟨origin⟩
    · intro origin
      have unaltered := origin.remembers.unaltered
      have settings := origin.remembers.sameSettings origin.continued
      refine ⟨unaltered, ?_, ?_, ?_, settings.table, settings.shiftMode⟩
      · exact fun mode => unaltered.not_mem rfl fun between => ⟨_, _, rfl⟩
      · exact unaltered.not_mem rfl fun between => ⟨_, _, rfl⟩
      · exact fun change => unaltered.not_mem rfl fun between => ⟨_, _, rfl⟩
  constructor
  · exact fun request error after refused => retains_of_refused refused
  · exact fun request timestep system asks remembered =>
      exists_answer_of_remembered asks remembered

/-! ## Refusals in a row -/

open ParticleSystem (dimer floatCube)

/-- A cube that is too small for a cutoff of two. -/
def narrowCube : Box Float :=
  ⟨⟨-1, -1, -1⟩, ⟨1, 1, 1⟩, by decide⟩

/-- The forces of two particles are computed.  Then an unknown type, a negative
onset, a file for two types, an unknown quantity and a box that is too small
are refused. -/
def refusals : List (Operation (PairLaw.lennardJones : PairLaw Float) (NeighborList Float)) :=
  repulsion ++ [.setCutoff 0 5 2, .setOnset 0 0 (-1), .applyFile ⟨.shift, []⟩ #["A", "B"],
    .logValue "pair_gauss_energy" 1 (dimer floatCube 1), .compute 2 (dimer narrowCube 1)]

theorem unaltered_since_computed_refusals :
    ∃ start final, newRepulsion = .ok start ∧ start.run refusals = .ok final ∧
      final.computedFor = some 1 ∧
      (∀ produced, ¬Recomputes final (.compute 1 (dimer floatCube 2)) 1 (dimer floatCube 2)
        produced) ∧
      final.perform (.compute 1 (dimer floatCube 2)) = .ok (.done none final) ∧
      (Nonempty (Provenance start final refusals 1) ∧
        ∀ origin : Provenance start final refusals 1,
          (origin.produced.remember 1).Unaltered origin.after ∧
          (∀ mode, .setShiftMode mode ∉ origin.after) ∧ .invalidate ∉ origin.after ∧
          (∀ change, .editSource change ∉ origin.after) ∧ SameSettings origin.produced final) ∧
      ∃ error after, final.perform (.compute 2 (dimer narrowCube 1)) = .ok (.refuse error after) ∧
        Retains final after := by
  have evaluated : (do
      let start ← newRepulsion
      let final ← start.run refusals
      let reply ← final.perform (.compute 2 (dimer narrowCube 1))
      return (final.computedFor, reply.answer.isOk)) = .ok (some 1, false) := by
    decide +kernel
  rcases bind_eq_ok_iff.1 evaluated with ⟨start, created, evaluated⟩
  rcases bind_eq_ok_iff.1 evaluated with ⟨final, ran, evaluated⟩
  rcases bind_eq_ok_iff.1 evaluated with ⟨⟨answer, after⟩, refused, evaluated⟩
  have read : final.computedFor = some 1 ∧ answer.isOk = false := by
    simpa using Except.ok.inj evaluated
  rcases read with ⟨remembered, rejected⟩
  have recalled : ∀ produced,
      ¬Recomputes final (.compute 1 (dimer floatCube 2)) 1 (dimer floatCube 2) produced :=
    fun _ recomputes => recomputes.forgotten remembered
  have answered : final.perform (.compute 1 (dimer floatCube 2)) = .ok (.done none final) :=
    map_eq_ok_iff.2 ⟨_, compute_of_remembered remembered _, rfl⟩
  have settled := unaltered_since_computed created ran
  cases answer with
  | ok _ => cases rejected
  | error error =>
      exact ⟨start, final, created, ran, remembered, recalled, answered,
        (settled.1 _ 1 _ none final (.compute 1 _) answered recalled).2,
        error, after, refused, settled.2.1 _ error after refused⟩

end Nonbonded.Potential
