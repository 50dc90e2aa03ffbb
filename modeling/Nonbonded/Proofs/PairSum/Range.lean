import Nonbonded.PairSum.Schedule
import Nonbonded.Proofs.Faults
import Nonbonded.Proofs.TypePair.Reading

/-!
# Sums that stay in range

A sum over listed pairs reads positions, types, diameters, charges and table
entries at the listed indices, and writes to the buffer there.  None of this
faults when every list names particles of the system only and the table has
settings for all types of the system.  The order of the particles, and how they
are shared between workers, does not matter.

A sum that does not fault leaves a buffer of the size it began with, whatever
the lists are.
-/

namespace Nonbonded

/-- Every particle below `size` has a list, and lists name only particles below
`size`. -/
def Covers (neighbors : Nat → Except Fault (Array Nat)) (size : Nat) : Prop :=
  ∀ i < size, ∃ partners, neighbors i = .ok partners ∧ ∀ j ∈ partners, j < size

/-- The list of a particle; empty when the source has none for it. -/
def listed (neighbors : Nat → Except Fault (Array Nat)) (i : Nat) : List Nat :=
  match neighbors i with
  | .ok partners => partners.toList
  | .error _ => []

theorem lt_of_mem_listed {neighbors : Nat → Except Fault (Array Nat)} {size i j : Nat}
    (covers : Covers neighbors size) (hi : i < size) (member : j ∈ listed neighbors i) :
    j < size := by
  obtain ⟨partners, found, inRange⟩ := covers i hi
  rw [listed, found] at member
  exact inRange j (Array.mem_toList_iff.1 member)

namespace Accumulators

variable {α : Type} [Scalar α]

theorem exists_add {acc : Accumulators α} {particle size : Nat} (sized : acc.size = size)
    (inRange : particle < size) (c : Contribution α) :
    ∃ result, acc.add particle c = .ok result ∧ result.size = size := by
  have listed : particle < acc.entries.size := by
    rw [← sized] at inRange
    exact inRange
  refine ⟨_, add_of_lt listed c, ?_⟩
  rw [← sized]
  exact Array.size_set listed

theorem exists_merge {left right : Accumulators α} {size : Nat} (leftSize : left.size = size)
    (rightSize : right.size = size) :
    ∃ result, left.merge right = .ok result ∧ result.size = size := by
  refine ⟨_, merge_of_size_eq (leftSize.trans rightSize.symm), ?_⟩
  calc
    (Array.zipWith (· + ·) left.entries right.entries).size = min left.size right.size :=
      Array.size_zipWith
    _ = size := by rw [leftSize, rightSize, Nat.min_self]

theorem size_of_merge {left right result : Accumulators α}
    (merged : left.merge right = .ok result) : result.size = left.size := by
  unfold merge at merged
  split at merged
  · next sameSize =>
      cases merged
      calc
        (Array.zipWith (· + ·) left.entries right.entries).size = min left.size right.size :=
          Array.size_zipWith
        _ = left.size := by rw [← sameSize, Nat.min_self]
  · cases merged

end Accumulators

theorem ParticleSystem.lt_size_of_position {α : Type} [Scalar α] {system : ParticleSystem α}
    {i : Nat} {here : Vec3 α} (found : system.position i = .ok here) : i < system.size :=
  (Array.getElem?_eq_some_iff.1 (entryAt_eq_ok_iff.1 found)).1

namespace PairSum

variable {α : Type} [Scalar α] {law : PairLaw α}

/-- The table has settings for all types of the system. -/
def WellTyped (sum : PairSum law) : Prop :=
  sum.system.typeCount ≤ sum.table.typeCount

omit [Scalar α] in
theorem exists_both (needed : Bool) {property : Nat → Except Fault α} {i j : Nat}
    (first : ∃ value, property i = .ok value) (second : ∃ value, property j = .ok value) :
    ∃ values, both needed property i j = .ok values := by
  rcases first with ⟨a, atFirst⟩
  rcases second with ⟨b, atSecond⟩
  cases needed with
  | false => exact ⟨none, rfl⟩
  | true => exact ⟨some (a, b), by simp only [both, if_pos, atFirst, atSecond]; rfl⟩

variable {sum : PairSum law} {i j : Nat}

theorem exists_separation (hi : i < sum.system.size) (hj : j < sum.system.size) :
    ∃ offset, sum.separation i j = .ok offset := by
  obtain ⟨here, atHere⟩ := ParticleSystem.exists_position hi
  obtain ⟨there, atThere⟩ := ParticleSystem.exists_position hj
  exact ⟨sum.system.box.minimumImage (here - there), by
    rw [separation, atHere, atThere]
    rfl⟩

theorem exists_entry (typed : sum.WellTyped) (hi : i < sum.system.size)
    (hj : j < sum.system.size) : ∃ entry, sum.entry i j = .ok entry := by
  obtain ⟨first, firstLt, atFirst⟩ := ParticleSystem.exists_typeOf hi
  obtain ⟨second, secondLt, atSecond⟩ := ParticleSystem.exists_typeOf hj
  obtain ⟨place, -, read⟩ := sum.table.get_of_lt (Nat.lt_of_lt_of_le firstLt typed)
    (Nat.lt_of_lt_of_le secondLt typed)
  exact ⟨sum.table.values[place], by
    rw [entry, atFirst, atSecond]
    exact read⟩

theorem mem_values_of_entry {entry : PairEntry law} (found : sum.entry i j = .ok entry) :
    entry ∈ sum.table.values := by
  obtain ⟨first, -, found⟩ := bind_eq_ok_iff.1 found
  obtain ⟨second, -, read⟩ := bind_eq_ok_iff.1 found
  exact TypePair.Table.mem_values_of_get read

/-- Everything that a contribution is computed from. -/
structure Reads (sum : PairSum law) (i j : Nat) (offset : Vec3 α) (entry : PairEntry law)
    (diameters charges : Option (α × α)) : Prop where
  separation : sum.separation i j = .ok offset
  entry : sum.entry i j = .ok entry
  diameters : both law.needsDiameter sum.system.diameter i j = .ok diameters
  charges : both law.needsCharge sum.system.charge i j = .ok charges

theorem exists_reads (typed : sum.WellTyped) (hi : i < sum.system.size)
    (hj : j < sum.system.size) :
    ∃ offset entry diameters charges, sum.Reads i j offset entry diameters charges := by
  obtain ⟨offset, separated⟩ := exists_separation hi hj
  obtain ⟨entry, found⟩ := exists_entry typed hi hj
  obtain ⟨diameters, bothDiameters⟩ := exists_both law.needsDiameter
    (ParticleSystem.exists_diameter hi) (ParticleSystem.exists_diameter hj)
  obtain ⟨charges, bothCharges⟩ := exists_both law.needsCharge
    (ParticleSystem.exists_charge hi) (ParticleSystem.exists_charge hj)
  exact ⟨offset, entry, diameters, charges, separated, found, bothDiameters, bothCharges⟩

/-- What a listed partner contributes, once everything it is computed from is
read. -/
theorem term_eq {offset : Vec3 α} {entry : PairEntry law} {diameters charges : Option (α × α)}
    (reads : sum.Reads i j offset entry diameters charges) :
    sum.term i j = .ok (if entry.rcutsq ≤ offset.normSq then none
      else (entry.interaction? sum.shiftMode offset.normSq diameters charges).map
        (·.share offset offset.normSq)) := by
  rw [term, reads.separation, reads.entry, bind_ok, bind_ok]
  by_cases beyond : entry.rcutsq ≤ offset.normSq
  · simp only [if_pos beyond]
    rfl
  · simp only [if_neg beyond, reads.diameters, reads.charges]
    rfl

theorem exists_reads_of_term {share : Contribution α} (found : sum.term i j = .ok (some share)) :
    ∃ offset entry diameters charges, sum.Reads i j offset entry diameters charges := by
  rw [term] at found
  rcases bind_eq_ok_iff.1 found with ⟨offset, separated, found⟩
  rcases bind_eq_ok_iff.1 found with ⟨entry, read, found⟩
  dsimp only at found
  split at found
  · cases found
  · rcases bind_eq_ok_iff.1 found with ⟨diameters, bothDiameters, found⟩
    rcases bind_eq_ok_iff.1 found with ⟨charges, bothCharges, -⟩
    exact ⟨offset, entry, diameters, charges, separated, read, bothDiameters, bothCharges⟩

/-- What one listed partner contributes is found without a fault. -/
theorem exists_term (typed : sum.WellTyped) (hi : i < sum.system.size)
    (hj : j < sum.system.size) : ∃ share, sum.term i j = .ok share := by
  obtain ⟨offset, entry, diameters, charges, reads⟩ := exists_reads typed hi hj
  exact ⟨_, term_eq reads⟩

theorem exists_takeUp (typed : sum.WellTyped) (hi : i < sum.system.size)
    (hj : j < sum.system.size) {running : Contribution α × Accumulators α}
    (sized : running.2.size = sum.system.size) :
    ∃ next, sum.takeUp i running j = .ok next ∧ next.2.size = sum.system.size := by
  obtain ⟨share?, found⟩ := exists_term typed hi hj
  rw [takeUp, found, bind_ok]
  cases share? with
  | none => exact ⟨running, rfl, sized⟩
  | some share =>
      cases storage : sum.storage with
      | half =>
          obtain ⟨acc, added, kept⟩ := Accumulators.exists_add sized hj share.reaction
          exact ⟨(running.1 + share, acc), by simp only [added]; rfl, kept⟩
      | full => exact ⟨(running.1 + share, running.2), rfl, sized⟩

theorem exists_accumulate (typed : sum.WellTyped) (hi : i < sum.system.size)
    {partners : Array Nat} (inRange : ∀ j ∈ partners, j < sum.system.size)
    {acc : Accumulators α} (sized : acc.size = sum.system.size) :
    ∃ result, sum.accumulate i partners acc = .ok result ∧ result.size = sum.system.size := by
  have step : ∀ running : Contribution α × Accumulators α, running.2.size = sum.system.size →
      ∀ j ∈ partners.toList, ∃ next, sum.takeUp i running j = .ok next ∧
        next.2.size = sum.system.size := by
    intro running holds j member
    exact exists_takeUp typed hi (inRange j (Array.mem_toList_iff.1 member)) holds
  have initially : ((.zero, acc) : Contribution α × Accumulators α).2.size = sum.system.size :=
    sized
  obtain ⟨⟨own, reacted⟩, folded, kept⟩ := exists_foldlM_eq_ok _ step initially
  rw [accumulate, ← Array.foldlM_toList, folded, bind_ok]
  exact Accumulators.exists_add kept hi own

/-- Adding the interactions of any particles of a covered system keeps the size
of the buffer. -/
theorem exists_accumulateAll (typed : sum.WellTyped) {neighbors : Nat → Except Fault (Array Nat)}
    (covers : Covers neighbors sum.system.size) {particles : List Nat}
    (inRange : ∀ i ∈ particles, i < sum.system.size) {acc : Accumulators α}
    (sized : acc.size = sum.system.size) :
    ∃ result, sum.accumulateAll neighbors particles acc = .ok result ∧
      result.size = sum.system.size := by
  refine exists_foldlM_eq_ok (fun acc : Accumulators α => acc.size = sum.system.size) ?_ sized
  intro acc holds i member
  obtain ⟨partners, listed, named⟩ := covers i (inRange i member)
  rw [listed, bind_ok]
  exact exists_accumulate typed (inRange i member) named holds

/-- The sum over a covered system succeeds, with an entry for every
particle. -/
theorem exists_total (typed : sum.WellTyped) {neighbors : Nat → Except Fault (Array Nat)}
    (covers : Covers neighbors sum.system.size) :
    ∃ result, sum.total neighbors = .ok result ∧ result.size = sum.system.size :=
  exists_accumulateAll typed covers (fun _ member => List.mem_range.1 member)
    (Accumulators.size_zeroed _)

theorem exists_gather (typed : sum.WellTyped) {neighbors : Nat → Except Fault (Array Nat)}
    (covers : Covers neighbors sum.system.size) {schedule : Schedule}
    (inRange : ∀ i ∈ schedule.particles, i < sum.system.size) :
    ∃ result, sum.gather neighbors schedule = .ok result ∧ result.size = sum.system.size := by
  induction schedule with
  | worker particles =>
      exact exists_accumulateAll typed covers inRange (Accumulators.size_zeroed _)
  | join left right leftHypothesis rightHypothesis =>
      obtain ⟨first, gatheredLeft, firstSize⟩ :=
        leftHypothesis fun i member => inRange i (List.mem_append_left _ member)
      obtain ⟨second, gatheredRight, secondSize⟩ :=
        rightHypothesis fun i member => inRange i (List.mem_append_right _ member)
      rw [gather, gatheredLeft, gatheredRight]
      exact Accumulators.exists_merge firstSize secondSize

/-- Sharing the sum between workers succeeds too, whatever the schedule. -/
theorem exists_sharedTotal (typed : sum.WellTyped)
    {neighbors : Nat → Except Fault (Array Nat)} (covers : Covers neighbors sum.system.size)
    {schedule : Schedule} (inRange : ∀ i ∈ schedule.particles, i < sum.system.size) :
    ∃ result, sum.sharedTotal neighbors schedule = .ok result ∧
      result.size = sum.system.size := by
  obtain ⟨gathered, found, sized⟩ := exists_gather typed covers inRange
  rw [sharedTotal, found, bind_ok]
  exact Accumulators.exists_merge (Accumulators.size_zeroed _) sized

/-! ## Sizes -/

theorem size_of_takeUp {running next : Contribution α × Accumulators α}
    (taken : sum.takeUp i running j = .ok next) : next.2.size = running.2.size := by
  rcases bind_eq_ok_iff.1 taken with ⟨share?, -, taken⟩
  cases share? with
  | none =>
      cases taken
      rfl
  | some share =>
      cases storage : sum.storage with
      | half =>
          simp only [storage] at taken
          rcases bind_eq_ok_iff.1 taken with ⟨acc, added, finished⟩
          cases finished
          exact Accumulators.size_eq_of_add added
      | full =>
          simp only [storage] at taken
          cases taken
          rfl

theorem size_of_accumulate {partners : Array Nat} {acc result : Accumulators α}
    (summed : sum.accumulate i partners acc = .ok result) : result.size = acc.size := by
  rcases bind_eq_ok_iff.1 summed with ⟨⟨own, reacted⟩, folded, added⟩
  rw [← Array.foldlM_toList] at folded
  have kept : reacted.size = acc.size :=
    foldlM_keeps (fun running : Contribution α × Accumulators α => running.2.size = acc.size)
      (fun _ _ _ sized taken => (size_of_takeUp taken).trans sized) rfl folded
  exact (Accumulators.size_eq_of_add added).trans kept

variable {neighbors : Nat → Except Fault (Array Nat)} {result : Accumulators α}

/-- Adding interactions, of whatever particles and from whatever lists, keeps
the size of the buffer. -/
theorem size_of_accumulateAll {particles : List Nat} {acc : Accumulators α}
    (summed : sum.accumulateAll neighbors particles acc = .ok result) :
    result.size = acc.size := by
  refine foldlM_keeps (fun state : Accumulators α => state.size = acc.size) ?_ rfl summed
  intro state particle next sized stepped
  rcases bind_eq_ok_iff.1 stepped with ⟨partners, -, accumulated⟩
  exact (size_of_accumulate accumulated).trans sized

theorem size_of_total (summed : sum.total neighbors = .ok result) :
    result.size = sum.system.size :=
  (size_of_accumulateAll summed).trans (Accumulators.size_zeroed _)

theorem size_of_sharedTotal {schedule : Schedule}
    (shared : sum.sharedTotal neighbors schedule = .ok result) :
    result.size = sum.system.size := by
  rcases bind_eq_ok_iff.1 shared with ⟨gathered, -, merged⟩
  rw [Accumulators.size_of_merge merged, Accumulators.size_zeroed]

end PairSum

end Nonbonded
