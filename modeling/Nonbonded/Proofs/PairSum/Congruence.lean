import Nonbonded.PairSum.Schedule
import Nonbonded.Proofs.Faults

/-!
# Sums that come to the same

Two sums, each over lists of its own, come to the same when every particle adds
the same to every buffer.  They then end alike to the last bit, and a fault in
one is a fault in the other.  Nothing is asked of the arithmetic.

There are two ways to get there.  Both sums may find the same contribution for
every pair and read the same lists.  Or one sum reads two sources whose lists
differ in partners that contribute nothing: those are passed over, and it
matters only that the others come in the same order.
-/

namespace Nonbonded.PairSum

variable {α : Type} [Scalar α] {law : PairLaw α} {left right sum : PairSum law}
  {first second : Nat → Except Fault (Array Nat)}

/-- Add the interactions of a particle with the partners that a source lists
for it. -/
def addListed (sum : PairSum law) (neighbors : Nat → Except Fault (Array Nat))
    (acc : Accumulators α) (i : Nat) : Except Fault (Accumulators α) := do
  sum.accumulate i (← neighbors i) acc

theorem accumulateAll_eq_foldlM (sum : PairSum law) (neighbors : Nat → Except Fault (Array Nat))
    (particles : List Nat) (acc : Accumulators α) :
    sum.accumulateAll neighbors particles acc = particles.foldlM (sum.addListed neighbors) acc :=
  rfl

/-- Two sums are for as many particles, and each particle adds the same to
every buffer. -/
structure Alike (left right : PairSum law) (first second : Nat → Except Fault (Array Nat)) :
    Prop where
  size : left.system.size = right.system.size
  adds : ∀ i < left.system.size, ∀ acc,
    left.addListed first acc i = right.addListed second acc i

namespace Alike

theorem accumulateAll (alike : Alike left right first second) {particles : List Nat}
    (inRange : ∀ i ∈ particles, i < left.system.size) (acc : Accumulators α) :
    left.accumulateAll first particles acc = right.accumulateAll second particles acc := by
  rw [accumulateAll_eq_foldlM, accumulateAll_eq_foldlM]
  exact foldlM_congr (fun i member => alike.adds i (inRange i member)) acc

theorem total (alike : Alike left right first second) : left.total first = right.total second := by
  rw [PairSum.total, PairSum.total, ← alike.size]
  exact alike.accumulateAll (fun _ member => List.mem_range.1 member) _

theorem gather (alike : Alike left right first second) {schedule : Schedule}
    (inRange : ∀ i ∈ schedule.particles, i < left.system.size) :
    left.gather first schedule = right.gather second schedule := by
  induction schedule with
  | worker particles =>
      rw [PairSum.gather, PairSum.gather, ← alike.size]
      exact alike.accumulateAll inRange _
  | join one other oneHypothesis otherHypothesis =>
      rw [PairSum.gather, PairSum.gather,
        oneHypothesis fun i member => inRange i (List.mem_append_left _ member),
        otherHypothesis fun i member => inRange i (List.mem_append_right _ member)]

/-- Sharing the sums between workers in the same way does not tell them
apart. -/
theorem sharedTotal (alike : Alike left right first second) {schedule : Schedule}
    (inRange : ∀ i ∈ schedule.particles, i < left.system.size) :
    left.sharedTotal first schedule = right.sharedTotal second schedule := by
  rw [PairSum.sharedTotal, PairSum.sharedTotal, alike.gather inRange, alike.size]

end Alike

/-! ## The same contributions -/

theorem entry_congr (table : left.table = right.table)
    (typeOf : left.system.typeOf = right.system.typeOf) (i j : Nat) :
    left.entry i j = right.entry i j := by
  rw [entry, entry, table, typeOf]

/-- A contribution reads the separation, the types, and the diameters and
charges. -/
theorem term_congr (table : left.table = right.table)
    (shiftMode : left.shiftMode = right.shiftMode)
    (separation : ∀ i j, left.separation i j = right.separation i j)
    (typeOf : left.system.typeOf = right.system.typeOf)
    (diameter : left.system.diameter = right.system.diameter)
    (charge : left.system.charge = right.system.charge) (i j : Nat) :
    left.term i j = right.term i j := by
  rw [term, term, separation, entry_congr table typeOf, shiftMode, diameter, charge]

theorem takeUp_congr (storage : left.storage = right.storage)
    (term : ∀ i j, left.term i j = right.term i j) (i : Nat) : left.takeUp i = right.takeUp i := by
  funext running j
  rw [takeUp, takeUp, term, storage]

theorem alike_of_term (size : left.system.size = right.system.size)
    (storage : left.storage = right.storage) (term : ∀ i j, left.term i j = right.term i j)
    (lists : ∀ i, first i = second i) : Alike left right first second := by
  refine ⟨size, fun i _ acc => ?_⟩
  rw [addListed, addListed, lists]
  congr 1
  funext partners
  rw [accumulate, accumulate, takeUp_congr storage term]

/-! ## The same contributing partners -/

/-- Whether there is anything to take up from a listed partner, be it a
contribution or a fault. -/
def contributes (sum : PairSum law) (i j : Nat) : Bool :=
  match sum.term i j with
  | .ok none => false
  | _ => true

theorem takeUp_of_not_contributes {i j : Nat} (nothing : sum.contributes i j = false)
    (running : Contribution α × Accumulators α) : sum.takeUp i running j = .ok running := by
  unfold contributes at nothing
  split at nothing
  · next found =>
      rw [takeUp, found]
      rfl
  · cases nothing

/-- Lists with the same contributing partners in the same order add the
same. -/
theorem accumulate_congr {i : Nat} {listed others : Array Nat}
    (same : listed.toList.filter (sum.contributes i) = others.toList.filter (sum.contributes i))
    (acc : Accumulators α) : sum.accumulate i listed acc = sum.accumulate i others acc := by
  have passedOver : ∀ partners : Array Nat, ∀ running,
      partners.foldlM (sum.takeUp i) running =
        (partners.toList.filter (sum.contributes i)).foldlM (sum.takeUp i) running := by
    intro partners running
    rw [← Array.foldlM_toList]
    exact (foldlM_filter (fun _ nothing => takeUp_of_not_contributes nothing) _ running).symm
  rw [accumulate, accumulate, passedOver, passedOver, same]

theorem alike_of_contributes
    (lists : ∀ i < sum.system.size, ∃ listed others, first i = .ok listed ∧ second i = .ok others ∧
      listed.toList.filter (sum.contributes i) = others.toList.filter (sum.contributes i)) :
    Alike sum sum first second := by
  refine ⟨rfl, fun i inRange acc => ?_⟩
  rcases lists i inRange with ⟨listed, others, found, foundOthers, same⟩
  rw [addListed, addListed, found, foundOthers]
  exact accumulate_congr same acc

end Nonbonded.PairSum
