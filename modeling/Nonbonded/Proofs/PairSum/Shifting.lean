import Nonbonded.Proofs.PairSum.Modes

/-!
# What shifting leaves alone

A law that is asked for shifted energies gives interactions to the same pairs
as before, with the same forces.  Forces and virials are summed up from forces
and virials, and no energy is looked at on the way.  So a sum with shifted
energies has the forces and virials of the sum without, to the last bit, and it
faults where that one does.

The argument follows two sums whose contributions differ in their energies
only, through one partner, one list, all particles, and the buffers of several
workers.
-/

namespace Nonbonded

variable {α : Type}

/-- Two interactions exert the same force. -/
def Interaction.SameForce (left right : Interaction α) : Prop :=
  left.forceOverDistance = right.forceOverDistance

/-- Asked for shifted energies, the law changes nothing but the energies. -/
def PairLaw.ShiftsEnergiesOnly (law : PairLaw α) : Prop :=
  ∀ params pair, Option.Rel Interaction.SameForce (law.evaluate params pair false)
    (law.evaluate params pair true)

/-! ## The same but for energies

Contributions and buffers that differ in their energies at most. -/

/-- The force and the virial of two contributions are the same. -/
structure Contribution.SameForce (left right : Contribution α) : Prop where
  force : left.force = right.force
  virial : left.virial = right.virial

namespace Contribution.SameForce

variable {left right leftMore rightMore : Contribution α}

theorem refl (c : Contribution α) : c.SameForce c :=
  ⟨rfl, rfl⟩

variable [Scalar α]

theorem add (same : left.SameForce right) (more : leftMore.SameForce rightMore) :
    (left + leftMore).SameForce (right + rightMore) where
  force := by rw [force_add, force_add, same.force, more.force]
  virial := by rw [virial_add, virial_add, same.virial, more.virial]

theorem reaction (same : left.SameForce right) : left.reaction.SameForce right.reaction where
  force := congrArg (- ·) same.force
  virial := same.virial

end Contribution.SameForce

namespace Accumulators

/-- The forces and the virials in two buffers are the same. -/
structure SameForces (left right : Accumulators α) : Prop where
  forces : left.forces = right.forces
  virials : left.virials = right.virials

variable {left right leftMore rightMore : Accumulators α}

theorem SameForces.refl (acc : Accumulators α) : acc.SameForces acc :=
  ⟨rfl, rfl⟩

/-- Buffers have the same forces and virials when they are of one size and
their entries do. -/
theorem sameForces_iff :
    left.SameForces right ↔ left.size = right.size ∧
      ∀ k (inLeft : k < left.entries.size) (inRight : k < right.entries.size),
        left.entries[k].SameForce right.entries[k] := by
  constructor
  · rintro ⟨forces, virials⟩
    have sameSize : left.size = right.size := by
      rw [← size_forces left, ← size_forces right, forces]
    refine ⟨sameSize, fun k inLeft inRight => ⟨?_, ?_⟩⟩
    · simpa [Accumulators.forces, inLeft, inRight] using congrArg (·[k]?) forces
    · simpa [Accumulators.virials, inLeft, inRight] using congrArg (·[k]?) virials
  · rintro ⟨sameSize, entries⟩
    constructor
    · apply Array.ext (by rw [size_forces, size_forces, sameSize])
      intro k inLeft inRight
      simpa [forces] using (entries k (Nat.lt_of_lt_of_eq inLeft (size_forces left))
        (Nat.lt_of_lt_of_eq inRight (size_forces right))).force
    · apply Array.ext (by rw [size_virials, size_virials, sameSize])
      intro k inLeft inRight
      simpa [virials] using (entries k (Nat.lt_of_lt_of_eq inLeft (size_virials left))
        (Nat.lt_of_lt_of_eq inRight (size_virials right))).virial

namespace SameForces

variable [Scalar α]

theorem add (same : left.SameForces right) {c d : Contribution α} (contributed : c.SameForce d)
    (particle : Nat) : EndsAlike SameForces (left.add particle c) (right.add particle d) := by
  rcases sameForces_iff.1 same with ⟨sameSize, entries⟩
  by_cases inLeft : particle < left.entries.size
  · have inRight : particle < right.entries.size := by
      rw [← show left.entries.size = right.entries.size from sameSize]
      exact inLeft
    rw [add_of_lt inLeft, add_of_lt inRight]
    refine .done (sameForces_iff.2 ⟨by simpa [size] using sameSize, fun k _ _ => ?_⟩)
    simp only [Array.getElem_set]
    split
    · exact (entries particle inLeft inRight).add contributed
    · exact entries k _ _
  · have notInRight : ¬particle < right.entries.size := by
      rw [← show left.entries.size = right.entries.size from sameSize]
      exact inLeft
    rw [Accumulators.add, Accumulators.add, dif_neg inLeft, dif_neg notInRight, sameSize]
    exact .fault _

theorem merge (same : left.SameForces right) (more : leftMore.SameForces rightMore) :
    EndsAlike SameForces (left.merge leftMore) (right.merge rightMore) := by
  rcases sameForces_iff.1 same with ⟨sameSize, entries⟩
  rcases sameForces_iff.1 more with ⟨sameSizeMore, entriesMore⟩
  rw [Accumulators.merge, Accumulators.merge, sameSize, sameSizeMore]
  split
  · refine .done (sameForces_iff.2 ⟨?_, fun k _ _ => ?_⟩)
    · simp only [size, Array.size_zipWith] at sameSize sameSizeMore ⊢
      rw [sameSize, sameSizeMore]
    · simp only [Array.getElem_zipWith]
      exact (entries k _ _).add (entriesMore k _ _)
  · exact .fault _

end SameForces

end Accumulators

/-! ## Sums -/

namespace PairSum

open Accumulators (SameForces)
open Contribution (SameForce)

variable [Scalar α] {law : PairLaw α} {left right sum : PairSum law}

/-- The total of a particle and the buffer, while its list is worked
through. -/
def SameRunning (left right : Contribution α × Accumulators α) : Prop :=
  left.1.SameForce right.1 ∧ left.2.SameForces right.2

/-- Two sums for as many particles, whose contributions differ in their
energies only. -/
structure SamePulls (left right : PairSum law) : Prop where
  size : left.system.size = right.system.size
  storage : left.storage = right.storage
  term : ∀ i j, EndsAlike (Option.Rel SameForce) (left.term i j) (right.term i j)

namespace SamePulls

variable (pulls : SamePulls left right) (neighbors : Nat → Except Fault (Array Nat))

include pulls

theorem takeUp (i j : Nat) {running other : Contribution α × Accumulators α}
    (same : SameRunning running other) :
    EndsAlike SameRunning (left.takeUp i running j) (right.takeUp i other j) := by
  rcases same with ⟨own, reacted⟩
  rw [PairSum.takeUp, PairSum.takeUp, pulls.storage]
  apply (pulls.term i j).bind
  intro share? shareOther? given
  cases given with
  | none => exact .done ⟨own, reacted⟩
  | some same =>
      cases right.storage with
      | half =>
          apply (reacted.add same.reaction j).bind
          intro acc accOther added
          exact .done ⟨own.add same, added⟩
      | full => exact .done ⟨own.add same, reacted⟩

theorem addListed (i : Nat) {acc other : Accumulators α} (same : acc.SameForces other) :
    EndsAlike SameForces (left.addListed neighbors acc i) (right.addListed neighbors other i) := by
  rw [PairSum.addListed, PairSum.addListed]
  apply EndsAlike.bind_same
  intro partners
  have folded : EndsAlike SameRunning (partners.toList.foldlM (left.takeUp i) (.zero, acc))
      (partners.toList.foldlM (right.takeUp i) (.zero, other)) :=
    .foldlM (fun j _ _ _ same => pulls.takeUp i j same) ⟨.refl _, same⟩
  rw [accumulate, accumulate, ← Array.foldlM_toList, ← Array.foldlM_toList]
  apply folded.bind
  rintro ⟨own, reacted⟩ ⟨ownOther, reactedOther⟩ ⟨sameOwn, sameReacted⟩
  exact sameReacted.add sameOwn i

theorem accumulateAll (particles : List Nat) {acc other : Accumulators α}
    (same : acc.SameForces other) :
    EndsAlike SameForces (left.accumulateAll neighbors particles acc)
      (right.accumulateAll neighbors particles other) := by
  rw [accumulateAll_eq_foldlM, accumulateAll_eq_foldlM]
  exact .foldlM (fun i _ _ _ same => pulls.addListed neighbors i same) same

theorem total : EndsAlike SameForces (left.total neighbors) (right.total neighbors) := by
  rw [PairSum.total, PairSum.total, pulls.size]
  exact pulls.accumulateAll neighbors _ (.refl _)

theorem gather (schedule : Schedule) :
    EndsAlike SameForces (left.gather neighbors schedule) (right.gather neighbors schedule) := by
  induction schedule with
  | worker particles =>
      rw [PairSum.gather, PairSum.gather, pulls.size]
      exact pulls.accumulateAll neighbors particles (.refl _)
  | join one other oneHypothesis otherHypothesis =>
      rw [PairSum.gather, PairSum.gather]
      apply oneHypothesis.bind
      intro first firstOther sameFirst
      apply otherHypothesis.bind
      intro second secondOther sameSecond
      exact sameFirst.merge sameSecond

theorem sharedTotal (schedule : Schedule) :
    EndsAlike SameForces (left.sharedTotal neighbors schedule)
      (right.sharedTotal neighbors schedule) := by
  rw [PairSum.sharedTotal, PairSum.sharedTotal, pulls.size]
  apply (pulls.gather neighbors schedule).bind
  intro gathered gatheredOther same
  exact (SameForces.refl _).merge same

end SamePulls

end PairSum

/-! ## No shift and shift -/

namespace PairEntry

variable [Scalar α] {law : PairLaw α} (entry : PairEntry law) (rsq : α)
  (diameters charges : Option (α × α))

theorem interaction?_none : entry.interaction? .none rsq diameters charges =
    law.evaluate entry.params ⟨rsq, entry.rcutsq, diameters, charges⟩ false :=
  Option.map_id'

theorem interaction?_shift : entry.interaction? .shift rsq diameters charges =
    law.evaluate entry.params ⟨rsq, entry.rcutsq, diameters, charges⟩ true :=
  Option.map_id'

end PairEntry

/-- Interactions with the same force have shares with the same force and
virial. -/
theorem Interaction.rel_share [Scalar α] {left? right? : Option (Interaction α)}
    (same? : Option.Rel SameForce left? right?) (offset : Vec3 α) (rsq : α) :
    Option.Rel Contribution.SameForce (left?.map (·.share offset rsq))
      (right?.map (·.share offset rsq)) := by
  cases same? with
  | none => exact .none
  | some same => exact .some ⟨congrArg offset.scale same, congrArg (1 / 6 * rsq * ·) same⟩

namespace PairSum

variable [Scalar α] {law : PairLaw α}

theorem samePulls_none_shift (lowers : law.ShiftsEnergiesOnly) (sum : PairSum law) :
    SamePulls (sum.inMode .none) (sum.inMode .shift) := by
  refine ⟨rfl, rfl, fun i j => ?_⟩
  rw [term, term]
  apply EndsAlike.bind_same
  intro offset
  apply EndsAlike.bind_same
  intro entry
  dsimp only
  split
  · exact .done .none
  · apply EndsAlike.bind_same
    intro diameters
    apply EndsAlike.bind_same
    intro charges
    apply EndsAlike.done
    simp only [inMode, PairEntry.interaction?_none, PairEntry.interaction?_shift]
    exact Interaction.rel_share (lowers entry.params _) offset offset.normSq

/-- The sums without and with shifted energies have the same forces and
virials. -/
theorem modesAgree_none_shift (lowers : law.ShiftsEnergiesOnly) (sum : PairSum law) :
    sum.ModesAgree Accumulators.SameForces .none .shift where
  total := (samePulls_none_shift lowers sum).total
  sharedTotal neighbors schedule _ :=
    (samePulls_none_shift lowers sum).sharedTotal neighbors schedule

end PairSum

end Nonbonded
