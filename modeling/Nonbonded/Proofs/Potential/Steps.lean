import Nonbonded.Potential.Operation
import Nonbonded.Proofs.Faults

/-!
# What a request to a potential can do

For every request, all the states it can leave.  A request that changes
settings keeps the source and the results, and keeps or drops the remembered
timestep.  A computation either refuses before it touches anything, or refuses
after the source was refreshed, or replaces the results.

`perform_cases` sorts all requests by what becomes of the results and of the
remembered timestep, `source_of_perform` by what becomes of the source;
theorems about runs need no more than that.
-/

namespace Nonbonded.Potential

variable {α : Type} {law : PairLaw α} {ν : Type}

/-! ## Settings -/

/-- One potential comes from another by a change of settings: its source and
results are the same, and its remembered timestep is the same or dropped. -/
structure Reconfigures (before after : Potential law ν) : Prop where
  source : after.source = before.source
  results : after.results = before.results
  computedFor : after.computedFor = before.computedFor ∨ after.computedFor = none

namespace Reconfigures

theorem refl (potential : Potential law ν) : Reconfigures potential potential :=
  ⟨rfl, rfl, .inl rfl⟩

theorem trans {first second third : Potential law ν} (left : Reconfigures first second)
    (right : Reconfigures second third) : Reconfigures first third where
  source := right.source.trans left.source
  results := right.results.trans left.results
  computedFor := by
    rcases right.computedFor with kept | dropped
    · rw [kept]
      exact left.computedFor
    · exact .inr dropped

/-- A sequence of two changes of settings is one. -/
theorem andThen {ε β γ : Type} {before : Potential law ν} {first : Reply ε β (Potential law ν)}
    {next : β → Potential law ν → Reply ε γ (Potential law ν)}
    (start : Reconfigures before first.state)
    (rest : ∀ value potential, Reconfigures potential (next value potential).state) :
    Reconfigures before (first.andThen next).state := by
  unfold Reply.andThen
  split
  · exact start.trans (rest _ _)
  · exact start

end Reconfigures

theorem reconfigures_updateEntry (potential : Potential law ν) (type1 type2 : Nat)
    (change : PairEntry law → PairEntry law) :
    Reconfigures potential (potential.updateEntry type1 type2 change).state := by
  unfold updateEntry
  dsimp only
  split
  · exact ⟨rfl, rfl, .inr rfl⟩
  · exact .refl potential

variable [Scalar α]

theorem reconfigures_updateRadius (potential : Potential law ν) (radius : Radius)
    (type1 type2 : Nat) (value : α) (change : PairEntry law → PairEntry law) :
    Reconfigures potential (potential.updateRadius radius type1 type2 value change).state := by
  unfold updateRadius
  split
  · exact reconfigures_updateEntry potential type1 type2 change
  · exact .refl potential

theorem reconfigures_install (potential : Potential law ν) (pair : ResolvedPair α law.Params) :
    Reconfigures potential (potential.install pair).state := by
  apply Reconfigures.andThen (reconfigures_updateEntry _ _ _ _)
  intro _ withParams
  apply Reconfigures.andThen (reconfigures_updateRadius _ _ _ _ _ _)
  intro _ withCutoff
  cases pair.onset with
  | some value => exact reconfigures_updateRadius _ _ _ _ _ _
  | none => exact .refl withCutoff

theorem reconfigures_installAll (potential : Potential law ν)
    (pairs : List (ResolvedPair α law.Params)) :
    Reconfigures potential (potential.installAll pairs).state := by
  suffices kept : ∀ reply : Reply (Error α) Unit (Potential law ν),
      Reconfigures potential reply.state →
        Reconfigures potential (pairs.foldl (fun reply pair =>
          reply.andThen fun _ potential => potential.install pair) reply).state from
    kept _ (.refl potential)
  induction pairs with
  | nil => exact fun _ start => start
  | cons first rest inductionHypothesis =>
      intro reply start
      exact inductionHypothesis _ (start.andThen fun _ potential =>
        reconfigures_install potential first)

theorem reconfigures_applyFile (potential : Potential law ν)
    (file : ParameterFile α law.Params) (typeNames : Array String) :
    Reconfigures potential (potential.applyFile file typeNames).state := by
  unfold applyFile
  split
  · exact .refl potential
  · split
    · exact .refl potential
    · exact Reconfigures.andThen (reconfigures_installAll potential _)
        fun _ _ => ⟨rfl, rfl, .inr rfl⟩

/-! ## Computations -/

/-- The system passes the checks when all its types are known and its box holds
all cutoffs. -/
theorem checkSystem_eq_ok_iff {potential : Potential law ν} {system : ParticleSystem α} :
    potential.checkSystem system = .ok () ↔
      system.typeCount ≤ potential.typeCount ∧
        ¬system.box.minHalfLength.2 < potential.maxCutoff := by
  unfold checkSystem
  by_cases unknown : potential.typeCount < system.typeCount
  · simp [unknown, Nat.not_le.2 unknown]
  · by_cases small : system.box.minHalfLength.2 < potential.maxCutoff <;>
      simp [unknown, small, Nat.not_lt.1 unknown]

/-- The checks read the table only. -/
theorem checkSystem_congr {μ : Type} {left : Potential law ν} {right : Potential law μ}
    (table : left.table = right.table) (system : ParticleSystem α) :
    left.checkSystem system = right.checkSystem system := by
  rw [checkSystem, checkSystem, typeCount, typeCount, maxCutoff, maxCutoff, table]

variable [NeighborSource ν α]

/-- The potential with its source brought up to date. -/
def refreshed (potential : Potential law ν) (timestep : Nat) (system : ParticleSystem α) :
    Potential law ν :=
  { potential with source := NeighborSource.refresh timestep system potential.source }

/-- The results of a system, from the source brought up to date. -/
def computedResults (potential : Potential law ν) (timestep : Nat) (system : ParticleSystem α) :
    Except Fault (Accumulators α) :=
  let refreshed := potential.refreshed timestep system
  (refreshed.pairSum system).total (NeighborSource.neighbors refreshed.source)

theorem computeForces_of_rejected {potential : Potential law ν} {system : ParticleSystem α}
    {error : Error α} (rejected : potential.checkSystem system = .error error) (timestep : Nat) :
    potential.computeForces timestep system = .ok (.refuse error potential) := by
  rw [computeForces, rejected]

theorem computeForces_of_checked {potential : Potential law ν} {system : ParticleSystem α}
    (checked : potential.checkSystem system = .ok ()) (timestep : Nat) :
    potential.computeForces timestep system =
      if NeighborSource.size (potential.refreshed timestep system).source ≠ system.size then
        .ok (.refuse (.particleCountMismatch system.size
            (NeighborSource.size (potential.refreshed timestep system).source))
          (potential.refreshed timestep system))
      else do
        let results ← potential.computedResults timestep system
        return .done () { potential.refreshed timestep system with results } := by
  rw [computeForces, checked]
  rfl

/-- The three ends of a computation of forces. -/
theorem computeForces_cases {potential : Potential law ν} {timestep : Nat}
    {system : ParticleSystem α} {reply : Reply (Error α) Unit (Potential law ν)}
    (computed : potential.computeForces timestep system = .ok reply) :
    (∃ error, potential.checkSystem system = .error error ∧ reply = .refuse error potential) ∨
    (∃ error, reply = .refuse error (potential.refreshed timestep system) ∧
      NeighborSource.size (potential.refreshed timestep system).source ≠ system.size) ∨
    (potential.checkSystem system = .ok () ∧
      NeighborSource.size (potential.refreshed timestep system).source = system.size ∧
      ∃ results, potential.computedResults timestep system = .ok results ∧
        reply = .done () { potential.refreshed timestep system with results }) := by
  cases checked : potential.checkSystem system with
  | error error =>
      rw [computeForces_of_rejected checked] at computed
      cases computed
      exact .inl ⟨error, rfl, rfl⟩
  | ok _ =>
      rw [computeForces_of_checked checked] at computed
      split at computed
      · next different =>
          cases computed
          exact .inr (.inl ⟨_, rfl, different⟩)
      · next same =>
          obtain ⟨results, summed, finished⟩ := bind_eq_ok_iff.1 computed
          cases finished
          exact .inr (.inr ⟨rfl, Classical.not_not.1 same, results, summed, rfl⟩)

/-- A computation of forces that is done: the checks were passed and the
results are the sum. -/
theorem computeForces_eq_done_iff {potential final : Potential law ν} {timestep : Nat}
    {system : ParticleSystem α} :
    potential.computeForces timestep system = .ok (.done () final) ↔
      potential.checkSystem system = .ok () ∧
      NeighborSource.size (potential.refreshed timestep system).source = system.size ∧
      ∃ results, potential.computedResults timestep system = .ok results ∧
        final = { potential.refreshed timestep system with results } := by
  constructor
  · intro computed
    rcases computeForces_cases computed with
      ⟨error, _, refused⟩ | ⟨error, refused, _⟩ | ⟨checked, sized, results, summed, finished⟩
    · cases congrArg Reply.answer refused
    · cases congrArg Reply.answer refused
    · exact ⟨checked, sized, results, summed, congrArg Reply.state finished⟩
  · rintro ⟨checked, sized, results, summed, rfl⟩
    rw [computeForces_of_checked checked, if_neg (Classical.not_not.2 sized), summed]
    rfl

/-- A computation of forces never touches the remembered timestep. -/
theorem computedFor_of_computeForces {potential : Potential law ν} {timestep : Nat}
    {system : ParticleSystem α} {reply : Reply (Error α) Unit (Potential law ν)}
    (computed : potential.computeForces timestep system = .ok reply) :
    reply.state.computedFor = potential.computedFor := by
  rcases computeForces_cases computed with
    ⟨_, _, rfl⟩ | ⟨_, rfl, _⟩ | ⟨_, _, _, _, rfl⟩ <;> rfl

/-- A computation of forces that is refused leaves the results as they were. -/
theorem results_of_refused_computeForces {potential : Potential law ν} {timestep : Nat}
    {system : ParticleSystem α} {error : Error α} {state : Potential law ν}
    (computed : potential.computeForces timestep system = .ok (.refuse error state)) :
    state.results = potential.results := by
  rcases computeForces_cases computed with
    ⟨_, _, same⟩ | ⟨_, same, _⟩ | ⟨_, _, _, _, finished⟩
  · have kept : state = potential := congrArg Reply.state same
    rw [kept]
  · have kept : state = potential.refreshed timestep system := congrArg Reply.state same
    rw [kept]
    rfl
  · cases congrArg Reply.answer finished

/-- A computation leaves the source as it was or refreshed. -/
theorem source_of_computeForces {potential : Potential law ν} {timestep : Nat}
    {system : ParticleSystem α} {reply : Reply (Error α) Unit (Potential law ν)}
    (computed : potential.computeForces timestep system = .ok reply) :
    reply.state.source = potential.source ∨
      reply.state.source = NeighborSource.refresh timestep system potential.source := by
  rcases computeForces_cases computed with
    ⟨_, _, rfl⟩ | ⟨_, rfl, _⟩ | ⟨_, _, _, _, rfl⟩
  · exact .inl rfl
  · exact .inr rfl
  · exact .inr rfl

/-- The potential with its results to be handed out again for a timestep. -/
def remember (potential : Potential law ν) (timestep : Nat) : Potential law ν :=
  { potential with computedFor := some timestep }

/-- The three ends of a computation for a timestep: it is answered from memory,
or it is refused as the computation of forces is, or the results are new and
remembered. -/
theorem compute_cases {potential : Potential law ν} {timestep : Nat} {system : ParticleSystem α}
    {reply : Reply (Error α) Unit (Potential law ν)}
    (computed : potential.compute timestep system = .ok reply) :
    (potential.computedFor = some timestep ∧ reply = .done () potential) ∨
    (potential.computedFor ≠ some timestep ∧ ∃ error state,
      potential.computeForces timestep system = .ok (.refuse error state) ∧
        reply = .refuse error state) ∨
    (potential.computedFor ≠ some timestep ∧ ∃ produced,
      potential.computeForces timestep system = .ok (.done () produced) ∧
        reply = .done () (produced.remember timestep)) := by
  unfold compute at computed
  split at computed
  · next remembered =>
      cases computed
      exact .inl ⟨remembered, rfl⟩
  · next forgotten =>
      obtain ⟨⟨answer, state⟩, forces, finished⟩ := bind_eq_ok_iff.1 computed
      cases finished
      cases answer with
      | error error => exact .inr (.inl ⟨forgotten, error, state, forces, rfl⟩)
      | ok _ => exact .inr (.inr ⟨forgotten, state, forces, rfl⟩)

/-- A computation answered from memory leaves everything as it is. -/
theorem compute_of_remembered {potential : Potential law ν} {timestep : Nat}
    (remembered : potential.computedFor = some timestep) (system : ParticleSystem α) :
    potential.compute timestep system = .ok (.done () potential) :=
  if_pos remembered

omit [Scalar α] [NeighborSource ν α] in
theorem ne_some_of_new {potential : Potential law ν} (newPotential : potential.computedFor = none)
    (timestep : Nat) : potential.computedFor ≠ some timestep := by
  rw [newPotential]
  exact nofun

/-- A computation for a timestep that is not remembered is done when the
computation of forces is. -/
theorem compute_of_done {potential produced : Potential law ν} {timestep : Nat}
    {system : ParticleSystem α} (forgotten : potential.computedFor ≠ some timestep)
    (forces : potential.computeForces timestep system = .ok (.done () produced)) :
    potential.compute timestep system = .ok (.done () (produced.remember timestep)) := by
  rw [compute, if_neg forgotten, forces]
  rfl

/-- A computation for a timestep that is not remembered is refused when the
computation of forces is. -/
theorem compute_of_refused {potential state : Potential law ν} {timestep : Nat}
    {system : ParticleSystem α} {error : Error α}
    (forgotten : potential.computedFor ≠ some timestep)
    (forces : potential.computeForces timestep system = .ok (.refuse error state)) :
    potential.compute timestep system = .ok (.refuse error state) := by
  rw [compute, if_neg forgotten, forces]
  rfl

/-- A computation for a timestep ends without a fault when the computation of
forces does. -/
theorem exists_compute {potential : Potential law ν} {timestep : Nat} {system : ParticleSystem α}
    (forces : ∃ reply, potential.computeForces timestep system = .ok reply) :
    ∃ reply, potential.compute timestep system = .ok reply := by
  rcases forces with ⟨reply, computed⟩
  by_cases remembered : potential.computedFor = some timestep
  · exact ⟨_, compute_of_remembered remembered system⟩
  · rw [compute, if_neg remembered, computed]
    exact ⟨_, rfl⟩

/-- The two ends of asking for a named quantity. -/
theorem logValue_cases {potential : Potential law ν} {quantity : String} {timestep : Nat}
    {system : ParticleSystem α} {reply : Reply (Error α) α (Potential law ν)}
    (asked : potential.logValue quantity timestep system = .ok reply) :
    (quantity ∉ potential.logQuantities ∧ reply =
      .refuse (.unknownQuantity quantity potential.logQuantities) potential) ∨
    (quantity ∈ potential.logQuantities ∧ ∃ computed,
      potential.compute timestep system = .ok computed ∧
        reply = computed.andThen fun _ state => .done state.results.totalEnergy state) := by
  unfold logValue at asked
  split at asked
  · next unknown =>
      cases asked
      exact .inl ⟨unknown, rfl⟩
  · next known =>
      obtain ⟨computed, computes, finished⟩ := bind_eq_ok_iff.1 asked
      cases finished
      exact .inr ⟨Classical.not_not.1 known, computed, computes, rfl⟩

theorem logValue_of_mem {potential : Potential law ν} {quantity : String}
    (known : quantity ∈ potential.logQuantities) {timestep : Nat} {system : ParticleSystem α}
    {computed : Reply (Error α) Unit (Potential law ν)}
    (computes : potential.compute timestep system = .ok computed) :
    potential.logValue quantity timestep system =
      .ok (computed.andThen fun _ state => .done state.results.totalEnergy state) := by
  rw [logValue, if_neg (Classical.not_not.2 known), computes]
  rfl

/-- Asking for a named quantity ends without a fault when the computation of
forces does. -/
theorem exists_logValue {potential : Potential law ν} {timestep : Nat}
    {system : ParticleSystem α} (quantity : String)
    (forces : ∃ reply, potential.computeForces timestep system = .ok reply) :
    ∃ reply, potential.logValue quantity timestep system = .ok reply := by
  by_cases known : quantity ∈ potential.logQuantities
  · obtain ⟨computed, computes⟩ := exists_compute forces
    exact ⟨_, logValue_of_mem known computes⟩
  · exact ⟨_, if_pos known⟩

/-! ## Requests -/

/-- The requests that want results for a timestep, from a system if they have
to be computed. -/
inductive Operation.AsksFor : Operation law ν → Nat → ParticleSystem α → Prop
  | compute (timestep : Nat) (system : ParticleSystem α) :
      AsksFor (.compute timestep system) timestep system
  | logValue (quantity : String) (timestep : Nat) (system : ParticleSystem α) :
      AsksFor (.logValue quantity timestep system) timestep system

/-- Whether a request is a direct computation of forces, outside any timestep
to be remembered. -/
def Operation.isDirect : Operation law ν → Bool
  | .computeForces _ _ => true
  | _ => false

/-- A request leaves the results alone: they stay, and the remembered timestep
stays or is dropped.  A direct computation does so only when it is refused. -/
structure Spares (potential : Potential law ν) (operation : Operation law ν)
    (reply : Reply (Error α) (Option α) (Potential law ν)) : Prop where
  direct : operation.isDirect = true → ∃ error, reply.answer = .error error
  results : reply.state.results = potential.results
  computedFor : reply.state.computedFor = potential.computedFor ∨ reply.state.computedFor = none

/-- A request wants results for a timestep that is not remembered, and they are
computed. -/
structure Recomputes (potential : Potential law ν) (operation : Operation law ν) (timestep : Nat)
    (system : ParticleSystem α) (produced : Potential law ν) : Prop where
  asks : operation.AsksFor timestep system
  forgotten : potential.computedFor ≠ some timestep
  computed : potential.computeForces timestep system = .ok (.done () produced)

omit [NeighborSource ν α] in
theorem spares_of_reconfigures {potential : Potential law ν} {operation : Operation law ν}
    {reply : Reply (Error α) (Option α) (Potential law ν)}
    (indirect : operation.isDirect = false) (changed : Reconfigures potential reply.state) :
    Spares potential operation reply where
  direct isDirect := by
    rw [indirect] at isDirect
    cases isDirect
  results := changed.results
  computedFor := changed.computedFor

/-- A request that goes through a computation for a timestep. -/
theorem spares_or_recomputes_of_compute {potential : Potential law ν}
    {operation : Operation law ν} {reply : Reply (Error α) (Option α) (Potential law ν)}
    {timestep : Nat} {system : ParticleSystem α}
    {computed : Reply (Error α) Unit (Potential law ν)} (indirect : operation.isDirect = false)
    (asks : operation.AsksFor timestep system)
    (computes : potential.compute timestep system = .ok computed)
    (same : reply.state = computed.state) :
    Spares potential operation reply ∨ ∃ timestep system produced,
      Recomputes potential operation timestep system produced ∧
        reply.state = produced.remember timestep := by
  rcases compute_cases computes with
    ⟨_, rfl⟩ | ⟨_, error, state, forces, rfl⟩ | ⟨forgotten, produced, forces, rfl⟩
  · refine .inl (spares_of_reconfigures indirect ?_)
    rw [same]
    exact .refl potential
  · refine .inl ⟨by simp [indirect], ?_, .inl ?_⟩
    · rw [same]
      exact results_of_refused_computeForces forces
    · rw [same]
      exact computedFor_of_computeForces forces
  · exact .inr ⟨timestep, system, produced, ⟨asks, forgotten, forces⟩, same⟩

/-- What a request does to the results and to the remembered timestep: it
spares them, or a direct computation replaces the results, or new results are
computed for a timestep and it is remembered. -/
theorem perform_cases {potential : Potential law ν} {operation : Operation law ν}
    {reply : Reply (Error α) (Option α) (Potential law ν)}
    (performed : potential.perform operation = .ok reply) :
    Spares potential operation reply ∨
    (∃ timestep system produced, operation = .computeForces timestep system ∧
      potential.computeForces timestep system = .ok (.done () produced) ∧
      reply = .done none produced) ∨
    (∃ timestep system produced, Recomputes potential operation timestep system produced ∧
      reply.state = produced.remember timestep) := by
  cases operation with
  | setParams type1 type2 params =>
      cases performed
      exact .inl (spares_of_reconfigures rfl (reconfigures_updateEntry _ _ _ _))
  | setCutoff type1 type2 value =>
      cases performed
      exact .inl (spares_of_reconfigures rfl (reconfigures_updateRadius _ _ _ _ _ _))
  | setOnset type1 type2 value =>
      cases performed
      exact .inl (spares_of_reconfigures rfl (reconfigures_updateRadius _ _ _ _ _ _))
  | setShiftMode mode =>
      cases performed
      exact .inl (spares_of_reconfigures rfl ⟨rfl, rfl, .inr rfl⟩)
  | applyFile file typeNames =>
      cases performed
      exact .inl (spares_of_reconfigures rfl (reconfigures_applyFile _ _ _))
  | invalidate =>
      cases performed
      exact .inl (spares_of_reconfigures rfl ⟨rfl, rfl, .inr rfl⟩)
  | editSource change =>
      cases performed
      exact .inl ⟨nofun, rfl, .inr rfl⟩
  | compute timestep system =>
      obtain ⟨computed, computes, rfl⟩ := map_eq_ok_iff.1 performed
      exact (spares_or_recomputes_of_compute rfl (.compute timestep system) computes
        rfl).imp_right .inr
  | logValue quantity timestep system =>
      obtain ⟨answered, asked, rfl⟩ := map_eq_ok_iff.1 performed
      rcases logValue_cases asked with ⟨_, rfl⟩ | ⟨_, computed, computes, rfl⟩
      · exact .inl (spares_of_reconfigures rfl (.refl potential))
      · refine (spares_or_recomputes_of_compute rfl (.logValue quantity timestep system) computes
          ?_).imp_right .inr
        cases answer : computed.answer <;> simp [Reply.andThen, answer]
  | computeForces timestep system =>
      obtain ⟨⟨answer, state⟩, computed, rfl⟩ := map_eq_ok_iff.1 performed
      cases answer with
      | error error =>
          exact .inl ⟨fun _ => ⟨error, rfl⟩, results_of_refused_computeForces computed,
            .inl (computedFor_of_computeForces computed)⟩
      | ok _ => exact .inr (.inl ⟨timestep, system, state, rfl, computed, rfl⟩)

/-! ## Sources -/

/-- The requests that may hand a system to the source, at a timestep. -/
inductive Operation.Presents : Operation law ν → Nat → ParticleSystem α → Prop
  | compute (timestep : Nat) (system : ParticleSystem α) :
      Presents (.compute timestep system) timestep system
  | computeForces (timestep : Nat) (system : ParticleSystem α) :
      Presents (.computeForces timestep system) timestep system
  | logValue (quantity : String) (timestep : Nat) (system : ParticleSystem α) :
      Presents (.logValue quantity timestep system) timestep system

theorem source_of_compute {potential : Potential law ν} {timestep : Nat}
    {system : ParticleSystem α} {reply : Reply (Error α) Unit (Potential law ν)}
    (computed : potential.compute timestep system = .ok reply) :
    reply.state.source = potential.source ∨
      reply.state.source = NeighborSource.refresh timestep system potential.source := by
  rcases compute_cases computed with
    ⟨_, rfl⟩ | ⟨_, error, state, forces, rfl⟩ | ⟨_, produced, forces, rfl⟩
  · exact .inl rfl
  · exact source_of_computeForces forces
  · have kept := source_of_computeForces forces
    exact kept

/-- A request leaves the source as it was, or refreshed with the system that
the request presents, or changed from outside. -/
theorem source_of_perform {potential : Potential law ν} {operation : Operation law ν}
    {reply : Reply (Error α) (Option α) (Potential law ν)}
    (performed : potential.perform operation = .ok reply) :
    reply.state.source = potential.source ∨
    (∃ timestep system, operation.Presents timestep system ∧
      reply.state.source = NeighborSource.refresh timestep system potential.source) ∨
    (∃ change, operation = .editSource change ∧ reply.state.source = change potential.source) := by
  cases operation with
  | setParams type1 type2 params =>
      cases performed
      exact .inl (reconfigures_updateEntry _ _ _ _).source
  | setCutoff type1 type2 value =>
      cases performed
      exact .inl (reconfigures_updateRadius _ _ _ _ _ _).source
  | setOnset type1 type2 value =>
      cases performed
      exact .inl (reconfigures_updateRadius _ _ _ _ _ _).source
  | setShiftMode mode =>
      cases performed
      exact .inl rfl
  | applyFile file typeNames =>
      cases performed
      exact .inl (reconfigures_applyFile _ _ _).source
  | invalidate =>
      cases performed
      exact .inl rfl
  | editSource change =>
      cases performed
      exact .inr (.inr ⟨change, rfl, rfl⟩)
  | compute timestep system =>
      rcases map_eq_ok_iff.1 performed with ⟨computed, computes, rfl⟩
      rcases source_of_compute computes with same | refreshed
      · exact .inl same
      · exact .inr (.inl ⟨timestep, system, .compute timestep system, refreshed⟩)
  | computeForces timestep system =>
      rcases map_eq_ok_iff.1 performed with ⟨computed, computes, rfl⟩
      rcases source_of_computeForces computes with same | refreshed
      · exact .inl same
      · exact .inr (.inl ⟨timestep, system, .computeForces timestep system, refreshed⟩)
  | logValue quantity timestep system =>
      rcases map_eq_ok_iff.1 performed with ⟨answered, asked, rfl⟩
      rcases logValue_cases asked with ⟨_, rfl⟩ | ⟨_, computed, computes, rfl⟩
      · exact .inl rfl
      · have kept : (computed.andThen fun _ state =>
            Reply.done state.results.totalEnergy state).state = computed.state := by
          cases answer : computed.answer <;> simp [Reply.andThen, answer]
        rw [Reply.state_map, kept]
        rcases source_of_compute computes with same | refreshed
        · exact .inl same
        · exact .inr (.inl ⟨timestep, system, .logValue quantity timestep system, refreshed⟩)

/-! ## Runs -/

/-- A run goes through when its first part does, and the rest from there. -/
theorem run_append_eq_ok_iff {potential final : Potential law ν}
    {first rest : List (Operation law ν)} :
    potential.run (first ++ rest) = .ok final ↔
      ∃ between, potential.run first = .ok between ∧ between.run rest = .ok final := by
  rw [run, List.foldlM_append]
  exact bind_eq_ok_iff

/-- A run begins with its first request, refused or not, and goes on from the
state it leaves. -/
theorem run_cons_eq_ok_iff {potential final : Potential law ν} {operation : Operation law ν}
    {rest : List (Operation law ν)} :
    potential.run (operation :: rest) = .ok final ↔
      ∃ reply, potential.perform operation = .ok reply ∧ reply.state.run rest = .ok final := by
  rw [run, List.foldlM_cons]
  simp only [bind_eq_ok_iff]
  constructor
  · rintro ⟨state, ⟨reply, performed, reached⟩, ended⟩
    cases reached
    exact ⟨reply, performed, ended⟩
  · rintro ⟨reply, performed, ended⟩
    exact ⟨reply.state, ⟨reply, performed, rfl⟩, ended⟩

theorem run_singleton_eq_ok_iff {potential final : Potential law ν}
    {operation : Operation law ν} :
    potential.run [operation] = .ok final ↔
      ∃ reply, potential.perform operation = .ok reply ∧ reply.state = final := by
  rw [run_cons_eq_ok_iff]
  constructor
  · rintro ⟨reply, performed, ended⟩
    cases ended
    exact ⟨reply, performed, rfl⟩
  · rintro ⟨reply, performed, rfl⟩
    exact ⟨reply, performed, rfl⟩

end Nonbonded.Potential
