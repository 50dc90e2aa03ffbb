import Mathlib.Logic.Equiv.Fin.Rotate
import Nonbonded.Proofs.Exact.Schedules
import Nonbonded.Proofs.Exact.StorageModes
import Nonbonded.Proofs.NeighborList.Origin

/-!
# Particles in another order

When the particles of a system are put in another order, a computation from the
beginning comes to the same: the same refusal, or for every particle the same
force, energy and virial.  The positions may be anything, and the list may
reach less far than the cutoffs.

A list that holds a pair once holds it for the smaller index, and so the pair
may be evaluated the other way round.  Contributions of a symmetric law are
then exchanged with their reactions.  Whether the pair is listed does not
depend on the direction either: opposite displacements have wrapped images of
one length, also at half a box length, where they are not opposite.
-/

namespace Nonbonded

/-! ## Systems in another order -/

namespace ParticleSystem

section

variable {β : Type} {size : Nat} (order : Equiv.Perm (Fin size))

/-- Entries in another order. -/
def reorder (values : Array β) (sized : values.size = size) : Array β :=
  .ofFn fun i : Fin size => values[Fin.cast sized.symm (order i)]

/-- Entries in another order, if there are any. -/
def reorder? : (values : Option (Array β)) → (∀ given ∈ values, given.size = size) →
    Option (Array β)
  | some given, sized => some (reorder order given (sized given rfl))
  | none, _ => none

variable {order}

theorem size_reorder {values : Array β} (sized : values.size = size) :
    (reorder order values sized).size = size :=
  Array.size_ofFn

theorem size_of_mem_reorder? {values? : Option (Array β)}
    (sized : ∀ given ∈ values?, given.size = size) :
    ∀ given ∈ reorder? order values? sized, given.size = size := by
  intro given member
  cases values? with
  | some values =>
      cases member
      exact size_reorder _
  | none => cases member

theorem mem_of_mem_reorder {values : Array β} (sized : values.size = size) {value : β}
    (member : value ∈ reorder order values sized) : value ∈ values := by
  rcases Array.mem_ofFn.1 member with ⟨i, rfl⟩
  exact Array.getElem_mem _

/-- At a place there is what was at the place that the order names. -/
theorem entryAt_reorder {values : Array β} (sized : values.size = size) (i : Fin size) :
    entryAt (reorder order values sized) i = entryAt values (order i) := by
  have inRange : (i : Nat) < (reorder order values sized).size := by
    rw [size_reorder]
    exact i.isLt
  have inRangeToo : (order i : Nat) < values.size := by
    rw [sized]
    exact (order i).isLt
  rw [entryAt_of_lt inRange, entryAt_of_lt inRangeToo]
  exact congrArg Except.ok (Array.getElem_ofFn inRange)

end

variable {α : Type} [Scalar α]

/-- The system with its particles in another order, each with its type,
diameter and charge. -/
def relabel (system : ParticleSystem α) (order : Equiv.Perm (Fin system.size)) :
    ParticleSystem α :=
  { system with
    positions := reorder order system.positions rfl
    types := reorder order system.types system.size_types
    diameters := reorder? order system.diameters system.size_diameters
    charges := reorder? order system.charges system.size_charges
    size_types := (size_reorder system.size_types).trans (size_reorder rfl).symm
    type_lt := fun type member =>
      system.type_lt type (mem_of_mem_reorder system.size_types member)
    size_diameters := fun given member =>
      (size_of_mem_reorder? system.size_diameters given member).trans (size_reorder rfl).symm
    size_charges := fun given member =>
      (size_of_mem_reorder? system.size_charges given member).trans (size_reorder rfl).symm }

section

variable (system : ParticleSystem α) (order : Equiv.Perm (Fin system.size))

@[simp]
theorem size_relabel : (system.relabel order).size = system.size :=
  size_reorder rfl

theorem position_relabel (i : Fin system.size) :
    (system.relabel order).position i = system.position (order i) :=
  entryAt_reorder rfl i

theorem typeOf_relabel (i : Fin system.size) :
    (system.relabel order).typeOf i = system.typeOf (order i) :=
  entryAt_reorder system.size_types i

theorem diameter_relabel (i : Fin system.size) :
    (system.relabel order).diameter i = system.diameter (order i) := by
  rcases system with ⟨_, _, _, _, _ | values, _, _, _, _, sized, _⟩
  · rfl
  · exact entryAt_reorder (sized values rfl) i

theorem charge_relabel (i : Fin system.size) :
    (system.relabel order).charge i = system.charge (order i) := by
  rcases system with ⟨_, _, _, _, _, _ | values, _, _, _, _, sized⟩
  · rfl
  · exact entryAt_reorder (sized values rfl) i

end

end ParticleSystem

/-! ## Pairs in another order -/

namespace PairSum

section

variable {α : Type} [Scalar α] {law : PairLaw α}

/-- The sum over the system with its particles in another order. -/
def relabel (sum : PairSum law) (order : Equiv.Perm (Fin sum.system.size)) : PairSum law :=
  { sum with system := sum.system.relabel order }

variable (sum : PairSum law) (order : Equiv.Perm (Fin sum.system.size)) (i j : Fin sum.system.size)

theorem separation_relabel :
    (sum.relabel order).separation i j = sum.separation (order i) (order j) := by
  rw [separation, separation, relabel, ParticleSystem.position_relabel,
    ParticleSystem.position_relabel]
  rfl

theorem term_relabel : (sum.relabel order).term i j = sum.term (order i) (order j) := by
  have entry : (sum.relabel order).entry i j = sum.entry (order i) (order j) := by
    rw [PairSum.entry, PairSum.entry, relabel, ParticleSystem.typeOf_relabel,
      ParticleSystem.typeOf_relabel]
  have diameters : both law.needsDiameter (sum.relabel order).system.diameter i j =
      both law.needsDiameter sum.system.diameter (order i) (order j) := by
    rw [both, both, relabel, ParticleSystem.diameter_relabel, ParticleSystem.diameter_relabel]
  have charges : both law.needsCharge (sum.relabel order).system.charge i j =
      both law.needsCharge sum.system.charge (order i) (order j) := by
    rw [both, both, relabel, ParticleSystem.charge_relabel, ParticleSystem.charge_relabel]
  rw [term, term, separation_relabel, entry, diameters, charges]
  rfl

end

theorem credit_relabel {law : PairLaw ℝ} (sum : PairSum law)
    (order : Equiv.Perm (Fin sum.system.size)) (i j : Fin sum.system.size) :
    (sum.relabel order).credit i j = sum.credit (order i) (order j) := by
  rw [credit, credit, term_relabel]

end PairSum

namespace NeighborList

theorem near_comm (box : Box ℝ) (reach : ℝ) (first second : Vec3 ℝ) :
    near box reach first second = near box reach second first := by
  rw [near, near, ← Vec3.neg_sub_eq, Box.normSq_minimumImage_neg]

theorem nearAt_comm (reach : ℝ) (system : ParticleSystem ℝ) (i j : Nat) :
    nearAt reach system i j = nearAt reach system j i := by
  unfold nearAt
  cases system.positions[i]? <;> cases system.positions[j]? <;>
    first
    | rfl
    | exact near_comm _ _ _ _

/-- After a rebuild every other particle that is near counts once. -/
theorem multiplicity_build_nsmul (list : NeighborList ℝ) (timestep : Nat)
    {system : ParticleSystem ℝ} {i j : Nat} (hi : i < system.size) (hj : j < system.size)
    (share : Contribution ℝ) :
    PairSum.multiplicity list.mode (list.build timestep system).neighbors i j • share =
      if i ≠ j ∧ nearAt list.reach system i j = true then share else 0 := by
  have ordered : nearAt list.reach system (min i j) (max i j) = nearAt list.reach system i j := by
    rcases Nat.le_total i j with below | above
    · rw [Nat.min_eq_left below, Nat.max_eq_right below]
    · rw [Nat.min_eq_right above, Nat.max_eq_left above, nearAt_comm]
  rw [multiplicity_build list timestep system hi hj, ordered]
  split
  · exact one_nsmul share
  · exact zero_nsmul share

theorem nearAt_relabel {law : PairLaw ℝ} (sum : PairSum law)
    (order : Equiv.Perm (Fin sum.system.size)) (reach : ℝ) (i j : Fin sum.system.size) :
    nearAt reach (sum.relabel order).system i j = nearAt reach sum.system (order i) (order j) := by
  rcases PairSum.exists_separation (order i).isLt (order j).isLt with ⟨offset, separated⟩
  rw [nearAt_eq separated, nearAt_eq ((PairSum.separation_relabel sum order i j).trans separated)]

end NeighborList

namespace Potential

variable {law : PairLaw ℝ} {potential : Potential law (NeighborList ℝ)}

/-- What a particle of a system receives from all others that are near. -/
noncomputable def receivedFromNear (potential : Potential law (NeighborList ℝ))
    (system : ParticleSystem ℝ) (k : Nat) : Contribution ℝ :=
  ∑ j ∈ Finset.range system.size,
    if k ≠ j ∧ NeighborList.nearAt potential.source.reach system k j = true then
      (potential.pairSum system).credit k j
    else 0

/-- In a computation from the beginning every particle receives what the near
ones contribute to it. -/
theorem exists_final_of_new (symmetric : law.Symmetric)
    (newPotential : potential.computedFor = none) (newList : potential.source.builtFor = none)
    {system : ParticleSystem ℝ} (checked : potential.checkSystem system = .ok ())
    (timestep : Nat) :
    ∃ final, potential.compute timestep system = .ok (.done () final) ∧
      final.results.size = system.size ∧
      (∀ k < system.size, final.results.entry k = .ok (potential.receivedFromNear system k)) ∧
      ∀ schedule : Schedule, schedule.particles.Perm (List.range system.size) →
        (final.pairSum system).sharedTotal (NeighborSource.neighbors final.source) schedule =
          .ok final.results := by
  have stale := NeighborList.isCurrent_of_forgotten newList timestep system
  have source := source_refreshed_of_stale stale
  have covers := covers_refreshed_of_stale stale
  have typed : ((potential.refreshed timestep system).pairSum system).WellTyped :=
    (checkSystem_eq_ok_iff.1 checked).1
  rcases exists_results_of_covers checked covers with ⟨results, summed, computed⟩
  rcases received_of_computeForces symmetric covers computed with ⟨size, received⟩
  refine ⟨_, compute_of_done (ne_some_of_new newPotential timestep) computed, size, ?_, ?_⟩
  · intro k inRange
    have sameCredit : ∀ j, ((potential.refreshed timestep system).pairSum system).credit k j =
        (potential.pairSum system).credit k j :=
      PairSum.credit_congr rfl rfl rfl k
    have found := Accumulators.entry_of_lt (size.symm ▸ inRange)
    rw [received k inRange] at found
    refine found.trans (congrArg Except.ok ?_)
    apply Finset.sum_congr rfl
    intro j member
    rw [source, sameCredit]
    exact NeighborList.multiplicity_build_nsmul potential.source timestep inRange
      (Finset.mem_range.1 member) _
  · intro schedule once
    exact PairSum.sharedTotal_eq_total typed covers once summed

theorem receivedFromNear_relabel (potential : Potential law (NeighborList ℝ))
    (system : ParticleSystem ℝ) (order : Equiv.Perm (Fin system.size)) (i : Fin system.size) :
    potential.receivedFromNear (system.relabel order) i =
      potential.receivedFromNear system (order i) := by
  rw [receivedFromNear, receivedFromNear, system.size_relabel order, Finset.sum_range,
    Finset.sum_range]
  refine Eq.trans ?_ (Equiv.sum_comp order _)
  apply Finset.sum_congr rfl
  intro j _
  have near := NeighborList.nearAt_relabel (potential.pairSum system) order potential.source.reach
    i j
  have credit := (potential.pairSum system).credit_relabel order i j
  have different : (i : Nat) ≠ j ↔ (order i : Nat) ≠ order j := by
    rw [ne_eq, ne_eq, Fin.val_inj, Fin.val_inj, order.injective.eq_iff]
  exact if_congr (and_congr different (Bool.eq_iff_iff.1 near)) credit rfl

/-- A new potential that computes a system and the same system with its
particles in another order refuses both with the same error, or finishes both,
and then every particle has received the same force, energy and virial, also
when the sums are shared between workers. -/
theorem compute_of_relabel (symmetric : law.Symmetric)
    (newPotential : potential.computedFor = none) (newList : potential.source.builtFor = none)
    (system : ParticleSystem ℝ) (order : Equiv.Perm (Fin system.size)) (timestep other : Nat) :
    (∃ error, potential.compute timestep system = .ok (.refuse error potential) ∧
      potential.compute other (system.relabel order) = .ok (.refuse error potential)) ∨
    ∃ final finalToo, potential.compute timestep system = .ok (.done () final) ∧
      potential.compute other (system.relabel order) = .ok (.done () finalToo) ∧
      final.results.size = system.size ∧ finalToo.results.size = system.size ∧
      (∀ i : Fin system.size, ∃ received, final.results.entry (order i) = .ok received ∧
        finalToo.results.entry i = .ok received) ∧
      ∀ schedule : Schedule, schedule.particles.Perm (List.range system.size) →
        (final.pairSum system).sharedTotal (NeighborSource.neighbors final.source) schedule =
            .ok final.results ∧
          (finalToo.pairSum (system.relabel order)).sharedTotal
            (NeighborSource.neighbors finalToo.source) schedule = .ok finalToo.results := by
  have sameSize := system.size_relabel order
  cases checked : potential.checkSystem system with
  | error error =>
      have checkedToo : potential.checkSystem (system.relabel order) = .error error := checked
      have refused := computeForces_of_rejected checked timestep
      have refusedToo := computeForces_of_rejected checkedToo other
      exact .inl ⟨error, compute_of_refused (ne_some_of_new newPotential timestep) refused,
        compute_of_refused (ne_some_of_new newPotential other) refusedToo⟩
  | ok _ =>
      have checkedToo : potential.checkSystem (system.relabel order) = .ok () := checked
      rcases exists_final_of_new symmetric newPotential newList checked timestep with
        ⟨final, computed, size, received, shared⟩
      rcases exists_final_of_new symmetric newPotential newList checkedToo other with
        ⟨finalToo, computedToo, sizeToo, receivedToo, sharedToo⟩
      rw [sameSize] at sizeToo
      refine .inr ⟨final, finalToo, computed, computedToo, size, sizeToo, ?_, ?_⟩
      · intro i
        have inRange : (i : Nat) < (system.relabel order).size := by
          rw [sameSize]
          exact i.isLt
        refine ⟨_, received (order i) (order i).isLt, ?_⟩
        rw [receivedToo i inRange, receivedFromNear_relabel]
      · intro schedule once
        have onceToo := once
        rw [← sameSize] at onceToo
        exact ⟨shared schedule once, sharedToo schedule onceToo⟩

/-! ## A row of three in another order -/

open ParticleSystem (trimer realCube)

/-- Every place of the row is given to the particle of the next place, the last
to the first particle. -/
noncomputable def rotated : Equiv.Perm (Fin (trimer realCube 1).size) :=
  finRotate 3

theorem compute_of_relabel_trimer :
    (PairLaw.lennardJones : PairLaw ℝ).Symmetric ∧ (repulsive .half).computedFor = none ∧
      (repulsive .half).source.builtFor = none ∧
      ∃ final finalToo, (repulsive .half).compute 0 (trimer realCube 1) = .ok (.done () final) ∧
        (repulsive .half).compute 1 ((trimer realCube 1).relabel rotated) =
          .ok (.done () finalToo) ∧
        ∃ received, final.results.entry 1 = .ok received ∧
          finalToo.results.entry 0 = .ok received := by
  have newPotential : (repulsive .half).computedFor = none := rfl
  have newList : (repulsive .half).source.builtFor = none := rfl
  have symmetric := PairLaw.Bundled.lennardJones.symmetric
  refine ⟨symmetric, newPotential, newList, ?_⟩
  rcases compute_of_relabel symmetric newPotential newList (trimer realCube 1) rotated 0 1 with
    ⟨error, refused, -⟩ | ⟨final, finalToo, computed, computedToo, -, -, received, -⟩
  · have checked : (repulsive .half).checkSystem (trimer realCube 1) = .ok () :=
      checkSystem_repulsive .half rfl rfl
    rcases exists_final_of_new symmetric newPotential newList checked 0 with ⟨final, computed, -⟩
    cases congrArg Reply.answer (Except.ok.inj (refused.symm.trans computed))
  · exact ⟨final, finalToo, computed, computedToo, received (0 : Fin 3)⟩

end Potential

end Nonbonded
