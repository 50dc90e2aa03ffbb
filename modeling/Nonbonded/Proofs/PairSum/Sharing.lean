import Nonbonded.Proofs.PairSum.Congruence
import Nonbonded.Proofs.PairSum.Range

/-!
# When a shared sum succeeds

Whether a particle can add its interactions to a buffer depends on how many
entries the buffer has, and not on what they hold.  So a sum succeeds exactly
when every one of its particles can add to a buffer of zeros, and neither the
order of the particles nor the way they are shared between workers matters.

Nothing is assumed about the system, the table, the lists or the arithmetic.
Which fault a sum ends with when it does not succeed is not said.
-/

namespace Nonbonded

theorem Accumulators.lt_of_add {α : Type} [Scalar α] {acc result : Accumulators α} {particle : Nat}
    {c : Contribution α} (added : acc.add particle c = .ok result) : particle < acc.size := by
  unfold add at added
  split at added
  · next inRange => exact inRange
  · cases added

namespace PairSum

variable {α : Type} [Scalar α] {law : PairLaw α} {sum : PairSum law}
  {neighbors : Nat → Except Fault (Array Nat)} {i j : Nat}

/-! ## One particle -/

theorem exists_takeUp_of_size {running other next : Contribution α × Accumulators α}
    (sameSize : running.2.size = other.2.size) (taken : sum.takeUp i running j = .ok next) :
    ∃ result, sum.takeUp i other j = .ok result ∧ next.2.size = result.2.size := by
  have kept := size_of_takeUp taken
  rcases bind_eq_ok_iff.1 taken with ⟨share?, found, taken⟩
  rw [takeUp, found, bind_ok]
  cases share? with
  | none => exact ⟨other, rfl, kept.trans sameSize⟩
  | some share =>
      cases storage : sum.storage with
      | half =>
          simp only [storage] at taken
          rcases bind_eq_ok_iff.1 taken with ⟨acc, added, -⟩
          have inRange : j < running.2.size := Accumulators.lt_of_add added
          rcases Accumulators.exists_add sameSize.symm inRange share.reaction with
            ⟨reacted, addedOther, sized⟩
          refine ⟨(other.1 + share, reacted), ?_, kept.trans sized.symm⟩
          simp only [addedOther]
          rfl
      | full => exact ⟨(other.1 + share, other.2), rfl, kept.trans sameSize⟩

theorem exists_addListed_of_size {acc other next : Accumulators α}
    (sameSize : acc.size = other.size) (added : sum.addListed neighbors acc i = .ok next) :
    ∃ result, sum.addListed neighbors other i = .ok result := by
  rcases bind_eq_ok_iff.1 added with ⟨partners, found, accumulated⟩
  rcases bind_eq_ok_iff.1 accumulated with ⟨⟨own, reacted⟩, folded, finished⟩
  rw [← Array.foldlM_toList] at folded
  have related : ((.zero, acc) : Contribution α × Accumulators α).2.size =
      ((.zero, other) : Contribution α × Accumulators α).2.size := sameSize
  have keeps : ∀ (left right : Contribution α × Accumulators α) (j : Nat)
      (next : Contribution α × Accumulators α), left.2.size = right.2.size →
        sum.takeUp i left j = .ok next →
        ∃ result, sum.takeUp i right j = .ok result ∧ next.2.size = result.2.size :=
    fun _ _ _ _ same taken => exists_takeUp_of_size same taken
  rcases exists_foldlM_of_related _ keeps related folded with
    ⟨⟨ownOther, reactedOther⟩, foldedOther, same⟩
  have inRange : i < reactedOther.size := by
    rw [← same]
    exact Accumulators.lt_of_add finished
  rcases Accumulators.exists_add rfl inRange ownOther with ⟨result, addedOther, -⟩
  refine ⟨result, ?_⟩
  rw [addListed, found, bind_ok, accumulate, ← Array.foldlM_toList, foldedOther]
  exact addedOther

/-- A particle can add its interactions to every buffer with an entry for each
particle. -/
def CanAdd (sum : PairSum law) (neighbors : Nat → Except Fault (Array Nat)) (i : Nat) : Prop :=
  ∀ acc : Accumulators α, acc.size = sum.system.size →
    ∃ result, sum.addListed neighbors acc i = .ok result

theorem canAdd_of_addListed {acc next : Accumulators α} (sized : acc.size = sum.system.size)
    (added : sum.addListed neighbors acc i = .ok next) : sum.CanAdd neighbors i :=
  fun _ sizedOther => exists_addListed_of_size (sized.trans sizedOther.symm) added

theorem size_of_addListed {acc next : Accumulators α}
    (added : sum.addListed neighbors acc i = .ok next) : next.size = acc.size := by
  rcases bind_eq_ok_iff.1 added with ⟨partners, -, accumulated⟩
  exact size_of_accumulate accumulated

/-! ## Several particles -/

/-- Several particles can be added one after the other exactly when each of
them can. -/
theorem exists_accumulateAll_iff {particles : List Nat} {acc : Accumulators α}
    (sized : acc.size = sum.system.size) :
    (∃ result, sum.accumulateAll neighbors particles acc = .ok result) ↔
      ∀ i ∈ particles, sum.CanAdd neighbors i := by
  rw [accumulateAll_eq_foldlM]
  constructor
  · rintro ⟨result, summed⟩
    induction particles generalizing acc with
    | nil => exact nofun
    | cons first rest inductionHypothesis =>
        rw [List.foldlM_cons] at summed
        rcases bind_eq_ok_iff.1 summed with ⟨next, added, summed⟩
        rw [List.forall_mem_cons]
        constructor
        · exact canAdd_of_addListed sized added
        · exact inductionHypothesis ((size_of_addListed added).trans sized) summed
  · intro canAdd
    have keeps : ∀ state : Accumulators α, state.size = sum.system.size → ∀ i ∈ particles,
        ∃ next, sum.addListed neighbors state i = .ok next ∧ next.size = sum.system.size := by
      intro state holds i member
      rcases canAdd i member state holds with ⟨next, added⟩
      exact ⟨next, added, (size_of_addListed added).trans holds⟩
    rcases exists_foldlM_eq_ok _ keeps sized with ⟨result, summed, -⟩
    exact ⟨result, summed⟩

theorem size_of_gather {schedule : Schedule} {result : Accumulators α}
    (gathered : sum.gather neighbors schedule = .ok result) :
    result.size = sum.system.size := by
  induction schedule generalizing result with
  | worker particles => exact (size_of_accumulateAll gathered).trans (Accumulators.size_zeroed _)
  | join left right leftHypothesis _ =>
      rcases bind_eq_ok_iff.1 gathered with ⟨first, gatheredLeft, gathered⟩
      rcases bind_eq_ok_iff.1 gathered with ⟨second, -, merged⟩
      exact (Accumulators.size_of_merge merged).trans (leftHypothesis gatheredLeft)

/-- Workers gather exactly when each of their particles can be added, whoever
adds it. -/
theorem exists_gather_iff {schedule : Schedule} :
    (∃ result, sum.gather neighbors schedule = .ok result) ↔
      ∀ i ∈ schedule.particles, sum.CanAdd neighbors i := by
  induction schedule with
  | worker particles => exact exists_accumulateAll_iff (Accumulators.size_zeroed _)
  | join left right leftHypothesis rightHypothesis =>
      rw [Schedule.particles, List.forall_mem_append, ← leftHypothesis, ← rightHypothesis]
      constructor
      · rintro ⟨result, gathered⟩
        rcases bind_eq_ok_iff.1 gathered with ⟨first, gatheredLeft, gathered⟩
        rcases bind_eq_ok_iff.1 gathered with ⟨second, gatheredRight, -⟩
        exact ⟨⟨first, gatheredLeft⟩, ⟨second, gatheredRight⟩⟩
      · rintro ⟨⟨first, gatheredLeft⟩, ⟨second, gatheredRight⟩⟩
        rcases Accumulators.exists_merge (size_of_gather gatheredLeft)
          (size_of_gather gatheredRight) with ⟨result, merged, -⟩
        rw [gather, gatheredLeft, gatheredRight]
        exact ⟨result, merged⟩

theorem exists_sharedTotal_iff {schedule : Schedule} :
    (∃ result, sum.sharedTotal neighbors schedule = .ok result) ↔
      ∀ i ∈ schedule.particles, sum.CanAdd neighbors i := by
  rw [← exists_gather_iff]
  constructor
  · rintro ⟨result, shared⟩
    rcases bind_eq_ok_iff.1 shared with ⟨gathered, found, -⟩
    exact ⟨gathered, found⟩
  · rintro ⟨gathered, found⟩
    rcases Accumulators.exists_merge (Accumulators.size_zeroed _) (size_of_gather found) with
      ⟨result, merged, -⟩
    rw [sharedTotal, found, bind_ok]
    exact ⟨result, merged⟩

/-- A schedule that takes up every particle once succeeds exactly when the sum
over all particles does. -/
theorem exists_sharedTotal_iff_total {schedule : Schedule}
    (once : schedule.particles.Perm (List.range sum.system.size)) :
    (∃ result, sum.sharedTotal neighbors schedule = .ok result) ↔
      ∃ result, sum.total neighbors = .ok result := by
  rw [exists_sharedTotal_iff, total, exists_accumulateAll_iff (Accumulators.size_zeroed _)]
  simp only [once.mem_iff]

/-- A particle that can add its interactions has a list, of particles of the
system. -/
theorem exists_list_of_canAdd (canAdd : sum.CanAdd neighbors i) :
    ∃ partners, neighbors i = .ok partners ∧ ∀ j ∈ partners, j < sum.system.size := by
  rcases canAdd _ (Accumulators.size_zeroed _) with ⟨result, added⟩
  rcases bind_eq_ok_iff.1 added with ⟨partners, found, accumulated⟩
  refine ⟨partners, found, fun j listedPartner => ?_⟩
  rcases bind_eq_ok_iff.1 accumulated with ⟨final, folded, -⟩
  rw [← Array.foldlM_toList] at folded
  rcases exists_step_of_foldlM (Array.mem_toList_iff.2 listedPartner) folded with
    ⟨running, next, taken⟩
  rcases bind_eq_ok_iff.1 taken with ⟨share?, contributed, -⟩
  rcases bind_eq_ok_iff.1 contributed with ⟨offset, separated, -⟩
  rcases bind_eq_ok_iff.1 separated with ⟨here, -, separated⟩
  rcases bind_eq_ok_iff.1 separated with ⟨there, atThere, -⟩
  exact ParticleSystem.lt_size_of_position atThere

/-- When all types are known, the sum over all particles succeeds exactly when
every particle has a list, of particles of the system. -/
theorem exists_total_iff_covers (typed : sum.WellTyped) :
    (∃ result, sum.total neighbors = .ok result) ↔ Covers neighbors sum.system.size := by
  constructor
  · intro summed
    have canAdd := (exists_accumulateAll_iff (Accumulators.size_zeroed _)).1 summed
    intro i hi
    exact exists_list_of_canAdd (canAdd i (List.mem_range.2 hi))
  · intro covers
    rcases exists_total typed covers with ⟨result, summed, -⟩
    exact ⟨result, summed⟩

end PairSum

end Nonbonded
