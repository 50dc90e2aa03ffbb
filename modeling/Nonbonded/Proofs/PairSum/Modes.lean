import Nonbonded.Proofs.Comparison
import Nonbonded.Proofs.PairSum.Congruence
import Nonbonded.Proofs.PairSum.Range

/-!
# Pairs of types that settle the mode

Under XPLOR smoothing the onset of a pair of types decides how its energies are
treated.  An onset beyond the cutoff leaves nothing to smooth, and the energies
are shifted.  An onset at the cutoff leaves only separations that do not
interact, and the energies are as the law defines them.  What the mode asks of
the law before an interaction is evaluated and what it does to the result fit
together in both cases.

So each pair of types has a mode that it settles on, and it contributes under
smoothing as it does under that mode.  Nothing is asked of the law, and of the
arithmetic only that comparisons do not contradict each other.
-/

namespace Nonbonded

variable {α : Type} [Scalar α]

namespace ShiftMode

open Scalar (Consistent)

variable {rsq rcutsq ronsq : α}

theorem shifts_xplor_of_beyond (beyond : rcutsq < ronsq) : xplor.shifts rcutsq ronsq = true :=
  decide_eq_true beyond

variable [Consistent α]

theorem smooths_xplor_of_beyond (beyond : rcutsq < ronsq) :
    xplor.smooths rsq rcutsq ronsq = false := by
  simp [smooths, Consistent.not_le_of_lt beyond]

theorem shifts_xplor_of_beq (atCutoff : ronsq == rcutsq) : xplor.shifts rcutsq ronsq = false :=
  decide_eq_false (Consistent.not_lt_of_beq atCutoff)

theorem smooths_xplor_of_beq (atCutoff : ronsq == rcutsq) (inside : ¬rcutsq ≤ rsq) :
    xplor.smooths rsq rcutsq ronsq = false := by
  have early : ¬ronsq ≤ rsq := fun reached => inside (Consistent.le_of_beq_of_le atCutoff reached)
  simp [smooths, early]

end ShiftMode

namespace PairEntry

variable {law : PairLaw α} {entry : PairEntry law}

/-- The onset of smoothing lies beyond the cutoff. -/
def OnsetBeyondCutoff (entry : PairEntry law) : Prop :=
  entry.rcutsq < entry.ronsq

/-- The onset of smoothing lies at the cutoff. -/
def OnsetAtCutoff (entry : PairEntry law) : Prop :=
  entry.ronsq == entry.rcutsq

instance : Decidable entry.OnsetBeyondCutoff :=
  inferInstanceAs (Decidable (entry.rcutsq < entry.ronsq))

instance : Decidable entry.OnsetAtCutoff :=
  inferInstanceAs (Decidable ((entry.ronsq == entry.rcutsq) = true))

/-- The mode that a pair of types settles on under smoothing. -/
def settledMode (entry : PairEntry law) : ShiftMode :=
  if entry.OnsetBeyondCutoff then .shift else if entry.OnsetAtCutoff then .none else .xplor

theorem settledMode_of_beyond (beyond : entry.OnsetBeyondCutoff) : entry.settledMode = .shift :=
  if_pos beyond

theorem settledMode_of_neither (before : ¬entry.OnsetBeyondCutoff) (apart : ¬entry.OnsetAtCutoff) :
    entry.settledMode = .xplor :=
  (if_neg before).trans (if_neg apart)

variable [Scalar.Consistent α]

theorem settledMode_of_at (atCutoff : entry.OnsetAtCutoff) : entry.settledMode = .none :=
  (if_neg (Scalar.Consistent.not_lt_of_beq atCutoff)).trans (if_pos atCutoff)

/-- Below the cutoff, smoothing makes of an interaction what the settled mode
makes of it. -/
theorem interaction?_xplor (entry : PairEntry law) {rsq : α} (inside : ¬entry.rcutsq ≤ rsq)
    (diameters charges : Option (α × α)) :
    entry.interaction? .xplor rsq diameters charges =
      entry.interaction? entry.settledMode rsq diameters charges := by
  by_cases beyond : entry.OnsetBeyondCutoff
  · simp only [settledMode_of_beyond beyond, interaction?, ShiftMode.shifts_xplor_of_beyond beyond,
      ShiftMode.apply, ShiftMode.smooths_xplor_of_beyond beyond]
    rfl
  · by_cases atCutoff : entry.OnsetAtCutoff
    · simp only [settledMode_of_at atCutoff, interaction?, ShiftMode.shifts_xplor_of_beq atCutoff,
        ShiftMode.apply, ShiftMode.smooths_xplor_of_beq atCutoff inside]
      rfl
    · rw [settledMode_of_neither beyond atCutoff]

end PairEntry

variable {law : PairLaw α}

namespace PairSum

variable {sum : PairSum law} {i j : Nat}

/-- The sum under another mode. -/
def inMode (sum : PairSum law) (mode : ShiftMode) : PairSum law :=
  { sum with shiftMode := mode }

/-- Under two modes a partner contributes the same when they make the same of
every interaction of its pair of types. -/
theorem term_inMode_congr {mode other : ShiftMode}
    (same : ∀ entry, sum.entry i j = .ok entry → ∀ rsq, ¬entry.rcutsq ≤ rsq →
      ∀ diameters charges, entry.interaction? mode rsq diameters charges =
        entry.interaction? other rsq diameters charges) :
    (sum.inMode mode).term i j = (sum.inMode other).term i j := by
  have reads : ∀ mode, (sum.inMode mode).separation i j = sum.separation i j ∧
      (sum.inMode mode).entry i j = sum.entry i j := fun _ => ⟨rfl, rfl⟩
  simp only [term, reads]
  cases sum.separation i j with
  | error fault => rfl
  | ok offset =>
      cases found : sum.entry i j with
      | error fault => rfl
      | ok entry =>
          simp only [bind_ok]
          split
          · rfl
          · next inside =>
              simp only [inMode, same entry found _ inside]

/-- Under two modes the sum ends alike, over all particles at once or shared
between workers. -/
structure ModesAgree (agree : Accumulators α → Accumulators α → Prop) (sum : PairSum law)
    (mode other : ShiftMode) : Prop where
  total : ∀ neighbors, EndsAlike agree ((sum.inMode mode).total neighbors)
    ((sum.inMode other).total neighbors)
  sharedTotal : ∀ neighbors (schedule : Schedule),
    (∀ i ∈ schedule.particles, i < sum.system.size) →
    EndsAlike agree ((sum.inMode mode).sharedTotal neighbors schedule)
      ((sum.inMode other).sharedTotal neighbors schedule)

/-- A mode that all pairs of types settle on gives the same sums as smoothing,
to the last bit. -/
theorem modesAgree_of_settled [Scalar.Consistent α] {mode : ShiftMode}
    (settled : ∀ entry ∈ sum.table.values, entry.settledMode = mode) :
    sum.ModesAgree Eq .xplor mode := by
  have term : ∀ i j, (sum.inMode .xplor).term i j = (sum.inMode mode).term i j := by
    intro i j
    apply term_inMode_congr
    intro entry found rsq inside diameters charges
    rw [← settled entry (mem_values_of_entry found)]
    exact entry.interaction?_xplor inside diameters charges
  have alike : ∀ neighbors, Alike (sum.inMode .xplor) (sum.inMode mode) neighbors neighbors :=
    fun _ => alike_of_term rfl rfl term fun _ => rfl
  constructor
  · intro neighbors
    exact .of_eq (fun _ => rfl) (alike neighbors).total
  · intro neighbors schedule inRange
    exact .of_eq (fun _ => rfl) ((alike neighbors).sharedTotal inRange)

/-! ## Each pair of types by itself -/

/-- The mode that the types of two particles settle on; smoothing itself when
they are not known. -/
def settledMode (sum : PairSum law) (i j : Nat) : ShiftMode :=
  match sum.entry i j with
  | .ok entry => entry.settledMode
  | .error _ => .xplor

theorem settledMode_eq {entry : PairEntry law} (found : sum.entry i j = .ok entry) :
    sum.settledMode i j = entry.settledMode := by
  rw [settledMode, found]

/-- Two particles contribute under smoothing as under the mode that their types
settle on. -/
theorem term_xplor [Scalar.Consistent α] (sum : PairSum law) (i j : Nat) :
    (sum.inMode .xplor).term i j = (sum.inMode (sum.settledMode i j)).term i j := by
  apply term_inMode_congr
  intro entry found rsq inside diameters charges
  rw [settledMode_eq found]
  exact entry.interaction?_xplor inside diameters charges

/-- Add the interactions of a particle, taking up each listed partner under a
mode of its own. -/
def addListedBy (sum : PairSum law) (modeOf : Nat → Nat → ShiftMode)
    (neighbors : Nat → Except Fault (Array Nat)) (acc : Accumulators α) (i : Nat) :
    Except Fault (Accumulators α) := do
  let partners ← neighbors i
  let (own, acc) ← partners.foldlM (fun running j => (sum.inMode (modeOf i j)).takeUp i running j)
    (.zero, acc)
  acc.add i own

/-- The contributions of all particles, taking up each listed partner under a
mode of its own. -/
def totalBy (sum : PairSum law) (modeOf : Nat → Nat → ShiftMode)
    (neighbors : Nat → Except Fault (Array Nat)) : Except Fault (Accumulators α) :=
  (List.range sum.system.size).foldlM (sum.addListedBy modeOf neighbors) (.zeroed sum.system.size)

theorem takeUp_xplor [Scalar.Consistent α] (sum : PairSum law) (i : Nat)
    (running : Contribution α × Accumulators α) (j : Nat) :
    (sum.inMode .xplor).takeUp i running j =
      (sum.inMode (sum.settledMode i j)).takeUp i running j := by
  rw [takeUp, takeUp, term_xplor]
  rfl

/-- Under smoothing every pair of types is taken up under the mode it settles
on. -/
theorem total_xplor [Scalar.Consistent α] (sum : PairSum law)
    (neighbors : Nat → Except Fault (Array Nat)) :
    (sum.inMode .xplor).total neighbors = sum.totalBy sum.settledMode neighbors := by
  have steps : (sum.inMode .xplor).addListed neighbors =
      sum.addListedBy sum.settledMode neighbors := by
    funext acc i
    have taken : (sum.inMode .xplor).takeUp i =
        fun running j => (sum.inMode (sum.settledMode i j)).takeUp i running j := by
      funext running j
      exact takeUp_xplor sum i running j
    rw [addListed, addListedBy]
    simp only [accumulate, taken]
  rw [total, accumulateAll_eq_foldlM, steps]
  rfl

end PairSum

end Nonbonded
