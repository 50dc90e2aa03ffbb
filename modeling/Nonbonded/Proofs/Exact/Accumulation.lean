import Mathlib.Algebra.BigOperators.Group.Finset.Basic
import Nonbonded.Proofs.Exact.Symmetry

/-!
# Sums over listed pairs in exact arithmetic

In exact arithmetic the order of a sum does not matter, so what a particle
receives depends only on how often each pair is listed: its own entries add
what the partners contribute to it, and when a pair is listed once, each entry
of it in another list adds a reaction.

For a symmetric law whose cutoffs fit the box a reaction is what the partner
would have contributed.  Then a total is determined by one number for each
ordered pair, its multiplicity.
-/

namespace Nonbonded

namespace Accumulators

/-- What a particle has received; nothing for a particle past the end. -/
noncomputable def received (acc : Accumulators ℝ) (particle : Nat) : Contribution ℝ :=
  acc.entries[particle]?.getD 0

theorem entry_of_lt {acc : Accumulators ℝ} {particle : Nat} (inRange : particle < acc.size) :
    acc.entry particle = .ok (acc.received particle) := by
  have listed : acc.entries[particle]? = some acc.entries[particle] :=
    Array.getElem?_eq_getElem inRange
  rw [entry, received, listed]
  exact entryAt_eq_ok_iff.2 listed

/-- Buffers of one size in which every particle has received the same are the
same. -/
theorem eq_of_received {left right : Accumulators ℝ} (sameSize : left.size = right.size)
    (same : ∀ particle < left.size, left.received particle = right.received particle) :
    left = right := by
  rcases left with ⟨leftEntries⟩
  rcases right with ⟨rightEntries⟩
  congr 1
  apply Array.ext sameSize
  intro particle inLeft inRight
  simpa [received, inLeft, inRight] using same particle inLeft

@[simp]
theorem received_zeroed (size particle : Nat) :
    (zeroed size : Accumulators ℝ).received particle = 0 := by
  rw [received, zeroed, Array.getElem?_replicate]
  split <;> rfl

/-- Adding to a particle is received by it and by no other. -/
theorem received_of_add {acc result : Accumulators ℝ} {particle : Nat} {c : Contribution ℝ}
    (added : acc.add particle c = .ok result) (k : Nat) :
    result.received k = acc.received k + if particle = k then c else 0 := by
  unfold add at added
  split at added
  · next inRange =>
      cases added
      rw [received, received, Array.getElem?_set]
      by_cases same : particle = k
      · subst same
        simp only [if_true, Array.getElem?_eq_getElem inRange, Option.getD_some]
      · simp only [if_neg same, add_zero]
  · cases added

end Accumulators

namespace PairSum

variable {law : PairLaw ℝ} {sum : PairSum law} {i j : Nat}

/-- What `j` contributes to `i` as a partner, zero when it contributes
nothing. -/
noncomputable def credit (sum : PairSum law) (i j : Nat) : Contribution ℝ :=
  match sum.term i j with
  | .ok (some share) => share
  | _ => 0

/-- What particle `k` receives when `i` takes up its partner `j`, besides what
goes to `i`. -/
noncomputable def returned (sum : PairSum law) (i k j : Nat) : Contribution ℝ :=
  if sum.storage = .half ∧ j = k then (sum.credit i j).reaction else 0

/-! ## One particle -/

theorem takeUp_exact {running next : Contribution ℝ × Accumulators ℝ}
    (taken : sum.takeUp i running j = .ok next) :
    next.1 = running.1 + sum.credit i j ∧
      ∀ k, next.2.received k = running.2.received k + sum.returned i k j := by
  obtain ⟨share?, contributed, taken⟩ := bind_eq_ok_iff.1 taken
  cases share? with
  | none =>
      cases taken
      have nothing : sum.credit i j = 0 := by rw [credit, contributed]
      refine ⟨by rw [nothing, add_zero], fun k => ?_⟩
      rw [returned, nothing, Contribution.reaction_zero, ite_self, add_zero]
  | some share =>
      have given : sum.credit i j = share := by rw [credit, contributed]
      simp only [returned, given]
      cases storage : sum.storage with
      | half =>
          simp only [storage] at taken
          obtain ⟨acc, added, finished⟩ := bind_eq_ok_iff.1 taken
          cases finished
          refine ⟨rfl, fun k => ?_⟩
          simp only [Accumulators.received_of_add added k, true_and]
      | full =>
          simp only [storage] at taken
          cases taken
          exact ⟨rfl, fun k => by simp⟩

theorem foldlM_takeUp_exact {partners : List Nat} {running final : Contribution ℝ × Accumulators ℝ}
    (folded : partners.foldlM (sum.takeUp i) running = .ok final) :
    final.1 = running.1 + (partners.map (sum.credit i)).sum ∧
      ∀ k, final.2.received k =
        running.2.received k + (partners.map (sum.returned i k)).sum := by
  induction partners generalizing running with
  | nil =>
      cases folded
      exact ⟨by simp, fun k => by simp⟩
  | cons first rest inductionHypothesis =>
      rw [List.foldlM_cons] at folded
      obtain ⟨next, taken, folded⟩ := bind_eq_ok_iff.1 folded
      obtain ⟨own, others⟩ := takeUp_exact taken
      obtain ⟨restOwn, restOthers⟩ := inductionHypothesis folded
      constructor
      · rw [restOwn, own, List.map_cons, List.sum_cons, add_assoc]
      · intro k
        rw [restOthers, others, List.map_cons, List.sum_cons, add_assoc]

/-- What particle `k` receives from the list of `i`. -/
noncomputable def fromList (sum : PairSum law) (i k : Nat) (partners : List Nat) :
    Contribution ℝ :=
  (partners.map (sum.returned i k)).sum + if i = k then (partners.map (sum.credit i)).sum else 0

theorem accumulate_exact {partners : Array Nat} {acc result : Accumulators ℝ}
    (summed : sum.accumulate i partners acc = .ok result) (k : Nat) :
    result.received k = acc.received k + sum.fromList i k partners.toList := by
  obtain ⟨⟨own, reacted⟩, folded, added⟩ := bind_eq_ok_iff.1 summed
  rw [← Array.foldlM_toList] at folded
  obtain ⟨ownSum, others⟩ := foldlM_takeUp_exact folded
  have fromZero : own = (partners.toList.map (sum.credit i)).sum := by
    rw [show own = _ from ownSum]
    exact zero_add _
  rw [Accumulators.received_of_add added, fromZero, fromList, ← add_assoc]
  exact congrArg (· + _) (others k)

/-! ## All particles -/

theorem accumulateAll_exact {neighbors : Nat → Except Fault (Array Nat)} {particles : List Nat}
    {acc result : Accumulators ℝ}
    (summed : sum.accumulateAll neighbors particles acc = .ok result) (k : Nat) :
    result.received k = acc.received k +
      (particles.map fun i => sum.fromList i k (listed neighbors i)).sum := by
  induction particles generalizing acc with
  | nil =>
      cases summed
      simp
  | cons first rest inductionHypothesis =>
      rw [accumulateAll, List.foldlM_cons] at summed
      obtain ⟨between, stepped, summed⟩ := bind_eq_ok_iff.1 summed
      obtain ⟨partners, found, accumulated⟩ := bind_eq_ok_iff.1 stepped
      rw [inductionHypothesis summed, accumulate_exact accumulated, List.map_cons, List.sum_cons,
        add_assoc, listed, found]

/-- What a particle receives in total is what it receives from every list. -/
theorem received_eq_sum_fromList {neighbors : Nat → Except Fault (Array Nat)}
    {result : Accumulators ℝ} (summed : sum.total neighbors = .ok result) (k : Nat) :
    result.received k =
      ∑ i ∈ Finset.range sum.system.size, sum.fromList i k (listed neighbors i) := by
  rw [accumulateAll_exact summed, Accumulators.received_zeroed, zero_add]
  rfl

/-- A sum over a list of partners below a bound is one over all numbers below
it, each as often as it is listed. -/
theorem sum_map_eq_sum_count {M : Type} [AddCommMonoid M] {partners : List Nat} {size : Nat}
    (inRange : ∀ j ∈ partners, j < size) (f : Nat → M) :
    (partners.map f).sum = ∑ j ∈ Finset.range size, partners.count j • f j := by
  rw [Finset.sum_list_map_count]
  apply Finset.sum_subset
  · intro j member
    exact Finset.mem_range.2 (inRange j (List.mem_toFinset.1 member))
  · intro j _ absent
    rw [List.count_eq_zero_of_not_mem fun member => absent (List.mem_toFinset.2 member),
      zero_nsmul]

theorem sum_map_returned {partners : List Nat} {size k : Nat}
    (inRange : ∀ j ∈ partners, j < size) (hk : k < size) :
    (partners.map (sum.returned i k)).sum =
      if sum.storage = .half then partners.count k • (sum.credit i k).reaction else 0 := by
  rw [sum_map_eq_sum_count inRange, Finset.sum_eq_single_of_mem k (Finset.mem_range.2 hk)]
  · by_cases once : sum.storage = .half
    · rw [returned, if_pos ⟨once, rfl⟩, if_pos once]
    · rw [returned, if_neg fun both => once both.1, if_neg once, nsmul_zero]
  · intro j _ other
    rw [returned, if_neg fun both => other both.2, nsmul_zero]

/-- What a particle receives in total: what the partners on its list
contribute, and, when a pair is listed once, the reactions from the lists it is
on. -/
theorem received_total {neighbors : Nat → Except Fault (Array Nat)}
    (covers : Covers neighbors sum.system.size) {result : Accumulators ℝ}
    (summed : sum.total neighbors = .ok result) {k : Nat} (hk : k < sum.system.size) :
    result.received k =
      ∑ j ∈ Finset.range sum.system.size, ((listed neighbors k).count j • sum.credit k j +
        if sum.storage = .half then (listed neighbors j).count k • (sum.credit j k).reaction
        else 0) := by
  rw [received_eq_sum_fromList summed, Finset.sum_add_distrib, add_comm]
  simp only [fromList, Finset.sum_add_distrib]
  congr 1
  · apply Finset.sum_congr rfl
    intro i member
    exact sum_map_returned (fun j => lt_of_mem_listed covers (Finset.mem_range.1 member)) hk
  · rw [Finset.sum_ite_eq' (Finset.range sum.system.size) k, if_pos (Finset.mem_range.2 hk)]
    exact sum_map_eq_sum_count (fun j => lt_of_mem_listed covers hk) _

/-! ## Symmetric laws -/

/-- How often a pair counts for its first particle: the entries of the second
in its list, and, when a pair is listed once, its own entries in the list of
the second. -/
def multiplicity (storage : StorageMode) (neighbors : Nat → Except Fault (Array Nat))
    (i j : Nat) : Nat :=
  (listed neighbors i).count j + if storage = .half then (listed neighbors j).count i else 0

theorem credit_swap (symmetric : law.Symmetric) (fit : sum.CutoffsFit) (typed : sum.WellTyped)
    (hi : i < sum.system.size) (hj : j < sum.system.size) :
    sum.credit j i = (sum.credit i j).reaction := by
  obtain ⟨share?, contributed⟩ := exists_term typed hi hj
  rw [credit, credit, term_swap symmetric fit typed hi hj contributed, contributed]
  cases share? with
  | none => exact Contribution.reaction_zero.symm
  | some share => rfl

theorem reaction_credit (symmetric : law.Symmetric) (fit : sum.CutoffsFit) (typed : sum.WellTyped)
    (hi : i < sum.system.size) (hj : j < sum.system.size) :
    (sum.credit j i).reaction = sum.credit i j :=
  (credit_swap symmetric fit typed hj hi).symm

/-- For a symmetric law whose cutoffs fit the box, a total is determined by the
multiplicities. -/
theorem received_total_of_symmetric (symmetric : law.Symmetric) (fit : sum.CutoffsFit)
    (typed : sum.WellTyped) {neighbors : Nat → Except Fault (Array Nat)}
    (covers : Covers neighbors sum.system.size) {result : Accumulators ℝ}
    (summed : sum.total neighbors = .ok result) {k : Nat} (hk : k < sum.system.size) :
    result.received k = ∑ j ∈ Finset.range sum.system.size,
      multiplicity sum.storage neighbors k j • sum.credit k j := by
  rw [received_total covers summed hk]
  apply Finset.sum_congr rfl
  intro j member
  rw [reaction_credit symmetric fit typed hk (Finset.mem_range.1 member), multiplicity, add_nsmul]
  split
  · rfl
  · rw [zero_nsmul]

end PairSum

end Nonbonded
