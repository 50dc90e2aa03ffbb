import Nonbonded.Proofs.PairSum.Range
import Nonbonded.Proofs.Traced

/-!
# The calls that a sum makes

A sum over listed pairs evaluates the law for pairs inside their cutoff, and
smooths some of the interactions it gets.  The traced sum is the same sum with
each of these calls recorded in the order in which they are made, over all
particles at once or shared between workers.  Nothing reads the record, so the
traced sum ends as the sum does.

Every smoothing comes right after the evaluation of the law that gave the
interaction.  Both are for one pair of particles below the cutoff of their
types, and the mode has been asked about the cutoff and onset of these types
each time: whether the energy is shifted, and whether the interaction is
smoothed.  This holds over any arithmetic, and also of what is recorded before
a fault.  A sum that does not fault has made these two calls for every listed
pair that meets the conditions.
-/

namespace Nonbonded

variable {α : Type}

/-- The arguments of a smoothing. -/
structure Smoothing (α : Type) where
  raw : Interaction α
  rsq : α
  rcutsq : α
  ronsq : α

/-- A call made while interactions are summed. -/
inductive Call (law : PairLaw α) where
  | evaluate (params : law.Params) (view : PairView α) (shifted : Bool)
  | smooth (smoothing : Smoothing α)

variable [Scalar α] {law : PairLaw α}

namespace Call

/-- Evaluate the law. -/
def evaluating (params : law.Params) (view : PairView α) (shifted : Bool) :
    Traced (Call law) (Option (Interaction α)) :=
  ⟨[.evaluate params view shifted], .ok (law.evaluate params view shifted)⟩

/-- Smooth an interaction. -/
def smoothing (arguments : Smoothing α) : Traced (Call law) (Interaction α) :=
  ⟨[.smooth arguments],
    .ok (ShiftMode.smooth arguments.raw arguments.rsq arguments.rcutsq arguments.ronsq)⟩

end Call

/-! ## The traced sum -/

/-- Smooth an interaction where the mode asks for it. -/
def ShiftMode.tracedApply (mode : ShiftMode) (raw : Interaction α) (rsq rcutsq ronsq : α) :
    Traced (Call law) (Interaction α) :=
  if mode.smooths rsq rcutsq ronsq then Call.smoothing ⟨raw, rsq, rcutsq, ronsq⟩ else pure raw

/-- The interaction of a pair inside its cutoff. -/
def PairEntry.tracedInteraction? (entry : PairEntry law) (mode : ShiftMode) (rsq : α)
    (diameters charges : Option (α × α)) : Traced (Call law) (Option (Interaction α)) := do
  match ← Call.evaluating entry.params ⟨rsq, entry.rcutsq, diameters, charges⟩
      (mode.shifts entry.rcutsq entry.ronsq) with
  | none => return none
  | some raw => return some (← mode.tracedApply raw rsq entry.rcutsq entry.ronsq)

namespace PairSum

/-- What a listed partner contributes to a particle. -/
def tracedTerm (sum : PairSum law) (i j : Nat) : Traced (Call law) (Option (Contribution α)) := do
  let offset ← sum.separation i j
  let entry ← sum.entry i j
  let rsq := offset.normSq
  if entry.rcutsq ≤ rsq then return none
  else
    let diameters ← both law.needsDiameter sum.system.diameter i j
    let charges ← both law.needsCharge sum.system.charge i j
    return (← entry.tracedInteraction? sum.shiftMode rsq diameters charges).map
      (·.share offset rsq)

/-- Take up one listed partner. -/
def tracedTakeUp (sum : PairSum law) (i : Nat) (running : Contribution α × Accumulators α)
    (j : Nat) : Traced (Call law) (Contribution α × Accumulators α) := do
  match ← sum.tracedTerm i j with
  | none => return running
  | some share =>
      match sum.storage with
      | .half => return (running.1 + share, ← running.2.add j share.reaction)
      | .full => return (running.1 + share, running.2)

/-- Add the interactions of a particle with its listed partners. -/
def tracedAccumulate (sum : PairSum law) (i : Nat) (partners : Array Nat) (acc : Accumulators α) :
    Traced (Call law) (Accumulators α) := do
  let (own, acc) ← partners.foldlM (sum.tracedTakeUp i) (.zero, acc)
  acc.add i own

/-- Add the interactions of several particles, one after the other. -/
def tracedAccumulateAll (sum : PairSum law) (neighbors : Nat → Except Fault (Array Nat))
    (particles : List Nat) (acc : Accumulators α) : Traced (Call law) (Accumulators α) :=
  particles.foldlM (fun acc i => do sum.tracedAccumulate i (← neighbors i) acc) acc

/-- The summed contributions of every particle of the system. -/
def tracedTotal (sum : PairSum law) (neighbors : Nat → Except Fault (Array Nat)) :
    Traced (Call law) (Accumulators α) :=
  sum.tracedAccumulateAll neighbors (List.range sum.system.size) (.zeroed sum.system.size)

/-- The merged buffers of the workers of a schedule. -/
def tracedGather (sum : PairSum law) (neighbors : Nat → Except Fault (Array Nat)) :
    Schedule → Traced (Call law) (Accumulators α)
  | .worker particles => sum.tracedAccumulateAll neighbors particles (.zeroed sum.system.size)
  | .join left right => do
      let first ← sum.tracedGather neighbors left
      let second ← sum.tracedGather neighbors right
      first.merge second

/-- The summed contributions, shared out by a schedule. -/
def tracedSharedTotal (sum : PairSum law) (neighbors : Nat → Except Fault (Array Nat))
    (schedule : Schedule) : Traced (Call law) (Accumulators α) := do
  (Accumulators.zeroed sum.system.size).merge (← sum.tracedGather neighbors schedule)

/-! ## Without the record -/

theorem outcome_tracedInteraction? (entry : PairEntry law) (mode : ShiftMode) (rsq : α)
    (diameters charges : Option (α × α)) :
    (entry.tracedInteraction? mode rsq diameters charges).outcome =
      .ok (entry.interaction? mode rsq diameters charges) := by
  rw [PairEntry.tracedInteraction?, PairEntry.interaction?, Traced.outcome_bind]
  simp only [Call.evaluating, bind_ok]
  cases law.evaluate entry.params ⟨rsq, entry.rcutsq, diameters, charges⟩
      (mode.shifts entry.rcutsq entry.ronsq) with
  | none => rfl
  | some raw =>
      simp only [ShiftMode.tracedApply, ShiftMode.apply, Option.map_some]
      split <;> rfl

variable (sum : PairSum law) (neighbors : Nat → Except Fault (Array Nat)) (i j : Nat)

theorem outcome_tracedTerm : (sum.tracedTerm i j).outcome = sum.term i j := by
  simp only [tracedTerm, term, Traced.outcome_bind, Traced.outcome_lift]
  congr 1
  funext offset
  congr 1
  funext entry
  split
  · rfl
  · simp only [Traced.outcome_bind, Traced.outcome_lift, outcome_tracedInteraction?, bind_ok]
    rfl

theorem outcome_tracedTakeUp (running : Contribution α × Accumulators α) :
    (sum.tracedTakeUp i running j).outcome = sum.takeUp i running j := by
  rw [tracedTakeUp, takeUp, Traced.outcome_bind, outcome_tracedTerm]
  congr 1
  funext share?
  cases share? with
  | none => rfl
  | some share =>
      cases sum.storage with
      | half => exact Traced.outcome_bind (liftM (running.2.add j share.reaction)) _
      | full => rfl

theorem outcome_tracedAccumulate (partners : Array Nat) (acc : Accumulators α) :
    (sum.tracedAccumulate i partners acc).outcome = sum.accumulate i partners acc := by
  rw [tracedAccumulate, accumulate, Traced.outcome_bind,
    ← Array.foldlM_toList, ← Array.foldlM_toList,
    Traced.outcome_foldlM fun running j => sum.outcome_tracedTakeUp i j running]
  rfl

theorem outcome_tracedAccumulateAll (particles : List Nat) (acc : Accumulators α) :
    (sum.tracedAccumulateAll neighbors particles acc).outcome =
      sum.accumulateAll neighbors particles acc := by
  apply Traced.outcome_foldlM
  intro acc i
  rw [Traced.outcome_bind, Traced.outcome_lift]
  simp only [outcome_tracedAccumulate]

theorem outcome_tracedTotal : (sum.tracedTotal neighbors).outcome = sum.total neighbors :=
  sum.outcome_tracedAccumulateAll neighbors _ _

theorem outcome_tracedGather (schedule : Schedule) :
    (sum.tracedGather neighbors schedule).outcome = sum.gather neighbors schedule := by
  induction schedule with
  | worker particles => exact sum.outcome_tracedAccumulateAll neighbors particles _
  | join left right leftHypothesis rightHypothesis =>
      rw [tracedGather, gather, Traced.outcome_bind, leftHypothesis]
      simp only [Traced.outcome_bind, Traced.outcome_lift, rightHypothesis]

theorem outcome_tracedSharedTotal (schedule : Schedule) :
    (sum.tracedSharedTotal neighbors schedule).outcome = sum.sharedTotal neighbors schedule := by
  rw [tracedSharedTotal, sharedTotal, Traced.outcome_bind, outcome_tracedGather]
  rfl

end PairSum

/-! ## What is recorded -/

/-- Every smoothing of a record comes right after a call that allows it. -/
def EachSmoothedAfter (allows : Call law → Smoothing α → Prop) (record : List (Call law)) : Prop :=
  ∀ before smoothing after, record = before ++ .smooth smoothing :: after →
    ∃ last ∈ before.getLast?, allows last smoothing

namespace EachSmoothedAfter

variable {allows : Call law → Smoothing α → Prop}

omit [Scalar α]

theorem additive (allows : Call law → Smoothing α → Prop) :
    Traced.Additive (EachSmoothedAfter allows) where
  nil before smoothing after split := by simp at split
  append := by
    intro earlier later inEarlier inLater before smoothing after split
    rcases List.append_eq_append_iff.1 split with ⟨middle, rfl, rest⟩ | ⟨middle, whole, rest⟩
    · rcases inLater middle smoothing after rest with ⟨last, found, allowed⟩
      refine ⟨last, ?_, allowed⟩
      rw [List.getLast?_append, Option.mem_def.1 found]
      rfl
    · cases middle with
      | nil =>
          -- The later record does not begin with a smoothing.
          rcases inLater [] smoothing after rest.symm with ⟨last, none, -⟩
          cases none
      | cons call middle =>
          cases rest
          exact inEarlier before smoothing middle whole

theorem mono {allowsMore : Call law → Smoothing α → Prop} {record : List (Call law)}
    (more : ∀ last smoothing, allows last smoothing → allowsMore last smoothing)
    (each : EachSmoothedAfter allows record) : EachSmoothedAfter allowsMore record := by
  intro before smoothing after split
  rcases each before smoothing after split with ⟨last, found, allowed⟩
  exact ⟨last, found, more last smoothing allowed⟩

/-- An evaluation, and the smoothings that may follow it. -/
theorem of_evaluation {params : law.Params} {view : PairView α} {shifted : Bool}
    {smoothed : Option (Smoothing α)}
    (allowed : ∀ smoothing ∈ smoothed, allows (.evaluate params view shifted) smoothing) :
    EachSmoothedAfter allows
      (.evaluate params view shifted :: (smoothed.map Call.smooth).toList) := by
  intro before smoothing after split
  rcases before with _ | ⟨call, _ | ⟨other, before⟩⟩
  · cases split
  · cases smoothed with
    | none => cases split
    | some only =>
        cases split
        exact ⟨_, rfl, allowed smoothing rfl⟩
  · cases smoothed with
    | none => cases split
    | some only => simp at split

end EachSmoothedAfter

/-- What is smoothed of an interaction that the law gave. -/
def PairEntry.smoothing? (entry : PairEntry law) (mode : ShiftMode) (rsq : α)
    (given : Option (Interaction α)) : Option (Smoothing α) :=
  given.bind fun raw =>
    if mode.smooths rsq entry.rcutsq entry.ronsq then some ⟨raw, rsq, entry.rcutsq, entry.ronsq⟩
    else none

theorem PairEntry.smoothing?_eq_some_iff {entry : PairEntry law} {mode : ShiftMode} {rsq : α}
    {given : Option (Interaction α)} {smoothing : Smoothing α} :
    entry.smoothing? mode rsq given = some smoothing ↔
      ∃ raw, given = some raw ∧ mode.smooths rsq entry.rcutsq entry.ronsq = true ∧
        smoothing = ⟨raw, rsq, entry.rcutsq, entry.ronsq⟩ := by
  simp only [smoothing?, Option.bind_eq_some_iff, Option.ite_none_right_eq_some, Option.some.injEq,
    eq_comm (b := smoothing)]

theorem PairEntry.record_tracedInteraction? {entry : PairEntry law} {mode : ShiftMode} {rsq : α}
    {diameters charges : Option (α × α)} {given : Option (Interaction α)}
    (evaluated : law.evaluate entry.params ⟨rsq, entry.rcutsq, diameters, charges⟩
      (mode.shifts entry.rcutsq entry.ronsq) = given) :
    (entry.tracedInteraction? mode rsq diameters charges).record =
      .evaluate entry.params ⟨rsq, entry.rcutsq, diameters, charges⟩
          (mode.shifts entry.rcutsq entry.ronsq) ::
        ((entry.smoothing? mode rsq given).map Call.smooth).toList := by
  rw [tracedInteraction?, Traced.record_bind rfl, evaluated]
  cases given with
  | none => rfl
  | some raw =>
      cases smooths : mode.smooths rsq entry.rcutsq entry.ronsq <;>
        simp [smoothing?, ShiftMode.tracedApply, smooths, Call.evaluating, Call.smoothing,
          Traced.record_bind]

namespace PairSum

variable {sum : PairSum law} {i j : Nat}

/-- The law was evaluated for two particles below the cutoff of their types,
and what it gave is smoothed because the mode asks for it. -/
inductive SmoothsPair (sum : PairSum law) (i j : Nat) : Call law → Smoothing α → Prop
  | of_reads {offset : Vec3 α} {entry : PairEntry law} {diameters charges : Option (α × α)}
      {raw : Interaction α} (reads : sum.Reads i j offset entry diameters charges)
      (below : ¬entry.rcutsq ≤ offset.normSq)
      (smooths : sum.shiftMode.smooths offset.normSq entry.rcutsq entry.ronsq = true)
      (given : law.evaluate entry.params ⟨offset.normSq, entry.rcutsq, diameters, charges⟩
        (sum.shiftMode.shifts entry.rcutsq entry.ronsq) = some raw) :
      SmoothsPair sum i j
        (.evaluate entry.params ⟨offset.normSq, entry.rcutsq, diameters, charges⟩
          (sum.shiftMode.shifts entry.rcutsq entry.ronsq))
        ⟨raw, offset.normSq, entry.rcutsq, entry.ronsq⟩

/-- Every smoothing of a record comes right after the evaluation of the law for
the same pair. -/
def SmoothsPairs (sum : PairSum law) (record : List (Call law)) : Prop :=
  EachSmoothedAfter (fun last smoothing => ∃ i j, sum.SmoothsPair i j last smoothing) record

theorem additive_smoothsPairs (sum : PairSum law) : Traced.Additive sum.SmoothsPairs :=
  EachSmoothedAfter.additive _

theorem smoothsPairs_tracedTerm (sum : PairSum law) (i j : Nat) :
    sum.SmoothsPairs (sum.tracedTerm i j).record := by
  have additive := sum.additive_smoothsPairs
  rw [tracedTerm]
  refine additive.lift_bind fun offset separated => additive.lift_bind fun entry found => ?_
  dsimp only
  split
  · exact additive.nil
  · next below =>
      refine additive.lift_bind fun diameters bothDiameters =>
        additive.lift_bind fun charges bothCharges => additive.bind ?_ fun _ _ => additive.nil
      rw [PairEntry.record_tracedInteraction? rfl]
      apply EachSmoothedAfter.of_evaluation
      intro smoothing asked
      rcases PairEntry.smoothing?_eq_some_iff.1 asked with ⟨raw, given, smooths, rfl⟩
      exact ⟨i, j, .of_reads ⟨separated, found, bothDiameters, bothCharges⟩ below smooths given⟩

theorem smoothsPairs_tracedTakeUp (sum : PairSum law) (i : Nat)
    (running : Contribution α × Accumulators α) (j : Nat) :
    sum.SmoothsPairs (sum.tracedTakeUp i running j).record := by
  have additive := sum.additive_smoothsPairs
  refine additive.bind (sum.smoothsPairs_tracedTerm i j) fun share? _ => ?_
  cases share? with
  | none => exact additive.nil
  | some share =>
      cases sum.storage with
      | half => exact additive.lift_bind fun _ _ => additive.nil
      | full => exact additive.nil

theorem smoothsPairs_tracedAccumulate (sum : PairSum law) (i : Nat) (partners : Array Nat)
    (acc : Accumulators α) : sum.SmoothsPairs (sum.tracedAccumulate i partners acc).record := by
  have additive := sum.additive_smoothsPairs
  rw [tracedAccumulate, ← Array.foldlM_toList]
  refine additive.bind ?_ fun _ _ => additive.nil
  exact additive.foldlM (sum.smoothsPairs_tracedTakeUp i) partners.toList _

variable {neighbors : Nat → Except Fault (Array Nat)}

theorem smoothsPairs_tracedAccumulateAll (particles : List Nat) (acc : Accumulators α) :
    sum.SmoothsPairs (sum.tracedAccumulateAll neighbors particles acc).record := by
  have additive := sum.additive_smoothsPairs
  refine additive.foldlM (fun acc i => ?_) particles acc
  exact additive.lift_bind fun partners _ => sum.smoothsPairs_tracedAccumulate i partners acc

theorem smoothsPairs_tracedTotal : sum.SmoothsPairs (sum.tracedTotal neighbors).record :=
  smoothsPairs_tracedAccumulateAll _ _

theorem smoothsPairs_tracedGather (schedule : Schedule) :
    sum.SmoothsPairs (sum.tracedGather neighbors schedule).record := by
  have additive := sum.additive_smoothsPairs
  induction schedule with
  | worker particles => exact smoothsPairs_tracedAccumulateAll particles _
  | join left right leftHypothesis rightHypothesis =>
      refine additive.bind leftHypothesis fun _ _ => ?_
      exact additive.bind rightHypothesis fun _ _ => additive.nil

theorem smoothsPairs_tracedSharedTotal (schedule : Schedule) :
    sum.SmoothsPairs (sum.tracedSharedTotal neighbors schedule).record :=
  sum.additive_smoothsPairs.bind (smoothsPairs_tracedGather schedule) fun _ _ =>
    sum.additive_smoothsPairs.nil

/-! ## Nothing is missed -/

variable {last : Call law} {smoothing : Smoothing α}

/-- A pair that is smoothed is evaluated and smoothed, and nothing else is
called for it. -/
theorem record_tracedTerm (smooths : sum.SmoothsPair i j last smoothing) :
    (sum.tracedTerm i j).record = [last, .smooth smoothing] := by
  cases smooths with
  | @of_reads offset entry diameters charges raw reads below asked given =>
      have arguments := PairEntry.smoothing?_eq_some_iff.2 ⟨raw, rfl, asked, rfl⟩
      rw [tracedTerm, reads.separation, reads.entry, Traced.record_bind rfl,
        Traced.record_bind rfl]
      simp only [if_neg below]
      rw [reads.diameters, reads.charges, Traced.record_bind rfl, Traced.record_bind rfl,
        Traced.record_bind (outcome_tracedInteraction? _ _ _ _ _),
        PairEntry.record_tracedInteraction? given, arguments]
      rfl

theorem infix_tracedTakeUp {running next : Contribution α × Accumulators α}
    (taken : (sum.tracedTakeUp i running j).outcome = .ok next) :
    (sum.tracedTerm i j).record <:+: (sum.tracedTakeUp i running j).record := by
  rw [tracedTakeUp, Traced.outcome_bind] at taken
  rcases bind_eq_ok_iff.1 taken with ⟨share?, found, -⟩
  rw [tracedTakeUp, Traced.record_bind found]
  exact (List.prefix_append _ _).isInfix

theorem infix_tracedAccumulate {partners : Array Nat} (member : j ∈ partners)
    {acc result : Accumulators α}
    (summed : (sum.tracedAccumulate i partners acc).outcome = .ok result) :
    (sum.tracedTerm i j).record <:+: (sum.tracedAccumulate i partners acc).record := by
  rw [tracedAccumulate, ← Array.foldlM_toList, Traced.outcome_bind] at summed
  rcases bind_eq_ok_iff.1 summed with ⟨final, folded, -⟩
  rw [tracedAccumulate, ← Array.foldlM_toList, Traced.record_bind folded]
  rcases Traced.infix_foldlM (Array.mem_toList_iff.2 member) folded with
    ⟨running, next, taken, recorded⟩
  exact ((infix_tracedTakeUp taken).trans recorded).trans (List.prefix_append _ _).isInfix

/-- A sum that does not fault has recorded the calls for each listed pair. -/
theorem infix_tracedTotal (hi : i < sum.system.size) (member : j ∈ listed neighbors i)
    {result : Accumulators α} (summed : sum.total neighbors = .ok result) :
    (sum.tracedTerm i j).record <:+: (sum.tracedTotal neighbors).record := by
  rw [← outcome_tracedTotal] at summed
  rcases Traced.infix_foldlM (List.mem_range.2 hi) summed with ⟨acc, next, added, recorded⟩
  refine List.IsInfix.trans ?_ recorded
  rw [Traced.outcome_bind] at added
  rcases bind_eq_ok_iff.1 added with ⟨partners, found, accumulated⟩
  rw [Traced.outcome_lift] at found
  rw [listed, found, Array.mem_toList_iff] at member
  rw [found, Traced.record_bind rfl, Traced.record_lift, List.nil_append]
  exact infix_tracedAccumulate member accumulated

end PairSum

end Nonbonded
