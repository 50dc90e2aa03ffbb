import Nonbonded.Proofs.Exact.LatticeSum
import Nonbonded.Proofs.Exact.Schedules
import Nonbonded.Proofs.NeighborList.Origin

/-!
# Candidates that are passed over

A neighbor source may list more than what is within the cutoffs.  A listed
partner at or beyond the cutoff of its pair is passed over, so two sources that
agree on all others, in their order, lead to the same forces to the last bit.
Nothing is asked of the arithmetic, the law or the sources, as long as both
cover the system.

In exact arithmetic that is what sets the buffer of a neighbor list free: new
lists that reach at least as far as the largest cutoff give the same forces,
however much further they reach.

A partner whose distance compares with nothing is neither beyond the cutoff nor
below it.  It is not passed over, and sources have to agree on it as well.
-/

namespace Nonbonded

/-! ## One sum over two sources -/

namespace PairSum

variable {α : Type} [Scalar α] {law : PairLaw α} {sum : PairSum law}
  {first second : Nat → Except Fault (Array Nat)} {i j : Nat}

/-- Whether a listed partner is at or beyond the cutoff of its pair. -/
def beyond (sum : PairSum law) (i j : Nat) : Bool :=
  match sum.separation i j, sum.entry i j with
  | .ok offset, .ok entry => decide (entry.rcutsq ≤ offset.normSq)
  | _, _ => false

theorem contributes_of_beyond (isBeyond : sum.beyond i j = true) :
    sum.contributes i j = false := by
  unfold beyond at isBeyond
  split at isBeyond
  · next offset entry separated found =>
      have passedOver : sum.term i j = .ok none := by
        rw [term, separated, found, bind_ok, bind_ok]
        exact if_pos (of_decide_eq_true isBeyond)
      rw [contributes, passedOver]
  · cases isBeyond

/-- The partners of a particle that are not passed over for their distance. -/
def kept (sum : PairSum law) (i : Nat) (partners : List Nat) : List Nat :=
  partners.filter fun j => !sum.beyond i j

/-- The partners of a particle that are below the cutoff.  They are those that
are kept, as long as every distance compares with its cutoff. -/
def below (sum : PairSum law) (i : Nat) (partners : List Nat) : List Nat :=
  partners.filter fun j =>
    match sum.separation i j, sum.entry i j with
    | .ok offset, .ok entry => decide (offset.normSq < entry.rcutsq)
    | _, _ => false

theorem filter_contributes_kept (sum : PairSum law) (i : Nat) (partners : List Nat) :
    (sum.kept i partners).filter (sum.contributes i) = partners.filter (sum.contributes i) := by
  rw [kept, List.filter_filter]
  apply List.filter_congr
  intro j _
  cases isBeyond : sum.beyond i j with
  | false => rw [Bool.not_false, Bool.and_true]
  | true => rw [contributes_of_beyond isBeyond, Bool.false_and]

/-- Two sources cover the system, and the lists of a particle differ in
partners at or beyond the cutoff only. -/
structure SameCandidates (sum : PairSum law) (first second : Nat → Except Fault (Array Nat)) :
    Prop where
  covers : Covers first sum.system.size
  coversToo : Covers second sum.system.size
  kept : ∀ i < sum.system.size, sum.kept i (listed first i) = sum.kept i (listed second i)

theorem SameCandidates.alike (same : sum.SameCandidates first second) :
    Alike sum sum first second := by
  apply alike_of_contributes
  intro i inRange
  rcases same.covers i inRange with ⟨partners, found, -⟩
  rcases same.coversToo i inRange with ⟨others, foundOthers, -⟩
  refine ⟨partners, others, found, foundOthers, ?_⟩
  have agree := same.kept i inRange
  simp only [listed, found, foundOthers] at agree
  rw [← filter_contributes_kept, agree, filter_contributes_kept]

end PairSum

/-! ## Forces over two sources -/

namespace Potential

variable {α : Type} [Scalar α] {law : PairLaw α} {ν μ : Type} [NeighborSource ν α]
  [NeighborSource μ α] {left : Potential law ν} {right : Potential law μ} {timestep other : Nat}
  {system : ParticleSystem α}

/-- Two potentials have the same settings, and their refreshed sources differ
in partners at or beyond the cutoff only. -/
structure Interchangeable (left : Potential law ν) (right : Potential law μ) (timestep other : Nat)
    (system : ParticleSystem α) : Prop where
  table : left.table = right.table
  shiftMode : left.shiftMode = right.shiftMode
  mode : NeighborSource.mode (left.refreshed timestep system).source =
    NeighborSource.mode (right.refreshed other system).source
  size : NeighborSource.size (left.refreshed timestep system).source = system.size
  sizeToo : NeighborSource.size (right.refreshed other system).source = system.size
  candidates : ((left.refreshed timestep system).pairSum system).SameCandidates
    (NeighborSource.neighbors (left.refreshed timestep system).source)
    (NeighborSource.neighbors (right.refreshed other system).source)

/-- Two computations of forces are refused with the same error, before anything
is touched, or they are done with the same results, and both sums leave the
same when they are shared between workers in the same way. -/
def SameForces (left : Potential law ν) (right : Potential law μ) (timestep other : Nat)
    (system : ParticleSystem α) : Prop :=
  (∃ error, left.computeForces timestep system = .ok (.refuse error left) ∧
    right.computeForces other system = .ok (.refuse error right)) ∨
  ∃ results,
    left.computeForces timestep system =
      .ok (.done () { left.refreshed timestep system with results }) ∧
    right.computeForces other system =
      .ok (.done () { right.refreshed other system with results }) ∧
    ∀ schedule : Schedule, (∀ i ∈ schedule.particles, i < system.size) → ∃ shared,
      ((left.refreshed timestep system).pairSum system).sharedTotal
          (NeighborSource.neighbors (left.refreshed timestep system).source) schedule =
            .ok shared ∧
        ((right.refreshed other system).pairSum system).sharedTotal
          (NeighborSource.neighbors (right.refreshed other system).source) schedule =
            .ok shared

theorem sameForces_of_interchangeable
    (same : left.Interchangeable right timestep other system) :
    left.SameForces right timestep other system := by
  have sameCheck := checkSystem_congr same.table system
  cases checked : left.checkSystem system with
  | error error =>
      rw [checked] at sameCheck
      exact .inl ⟨error, computeForces_of_rejected checked timestep,
        computeForces_of_rejected sameCheck.symm other⟩
  | ok _ =>
      rw [checked] at sameCheck
      have sameSum : (right.refreshed other system).pairSum system =
          (left.refreshed timestep system).pairSum system := by
        rw [pairSum, pairSum, same.mode]
        congr 1
        · exact same.table.symm
        · exact same.shiftMode.symm
      have typed : ((left.refreshed timestep system).pairSum system).WellTyped :=
        (checkSystem_eq_ok_iff.1 checked).1
      have alike := same.candidates.alike
      rcases PairSum.exists_total typed same.candidates.covers with ⟨results, summed, -⟩
      have summedToo : right.computedResults other system = .ok results := by
        rw [computedResults, sameSum]
        exact alike.total.symm.trans summed
      right
      refine ⟨results, computeForces_eq_done_iff.2 ⟨checked, same.size, results, summed, rfl⟩,
        computeForces_eq_done_iff.2 ⟨sameCheck.symm, same.sizeToo, results, summedToo, rfl⟩, ?_⟩
      intro schedule inRange
      rcases PairSum.exists_sharedTotal typed same.candidates.covers inRange with
        ⟨shared, found, -⟩
      rw [sameSum, ← alike.sharedTotal inRange]
      exact ⟨shared, found, found⟩

/-! ## New lists in exact arithmetic -/

/-- A partner of another particle that is not beyond the cutoff is near, for
every list that reaches at least as far as the cutoffs. -/
theorem nearAt_of_not_beyond {law : PairLaw ℝ} {sum : PairSum law} (fit : sum.CutoffsFit)
    (typed : sum.WellTyped) {reach : ℝ}
    (reaches : ∀ entry ∈ sum.table.values, entry.rcutsq ≤ reach * reach) {i j : Nat}
    (hi : i < sum.system.size) (hj : j < sum.system.size) (within : sum.beyond i j = false) :
    NeighborList.nearAt reach sum.system (min i j) (max i j) = true := by
  rcases PairSum.exists_separation hi hj with ⟨offset, separated⟩
  rcases PairSum.exists_entry typed hi hj with ⟨entry, found⟩
  simp only [PairSum.beyond, separated, found, decide_eq_false_iff_not, not_le] at within
  exact PairSum.nearAt_of_withinCutoff (i := ⟨i, hi⟩) (j := ⟨j, hj⟩) fit reaches separated
    ⟨entry, found, within⟩

theorem sameCandidates_build {law : PairLaw ℝ} {sum : PairSum law} (fit : sum.CutoffsFit)
    (typed : sum.WellTyped) {list wider : NeighborList ℝ} (mode : list.mode = wider.mode)
    (reaches : ∀ entry ∈ sum.table.values, entry.rcutsq ≤ list.reach * list.reach)
    (reachesToo : ∀ entry ∈ sum.table.values, entry.rcutsq ≤ wider.reach * wider.reach)
    (timestep other : Nat) :
    sum.SameCandidates (list.build timestep sum.system).neighbors
      (wider.build other sum.system).neighbors := by
  constructor
  case covers => exact NeighborList.covers_build list timestep sum.system
  case coversToo => exact NeighborList.covers_build wider other sum.system
  case kept =>
    intro i hi
    rw [NeighborList.listed_build list timestep sum.system hi,
      NeighborList.listed_build wider other sum.system hi, mode]
    apply NeighborList.filter_partnersOf_congr
    intro j hj notBeyond _
    have within : sum.beyond i j = false := by simpa using notBeyond
    rw [nearAt_of_not_beyond fit typed reaches hi hj within,
      nearAt_of_not_beyond fit typed reachesToo hi hj within]

/-- New lists of one storage mode, with whatever radii, are interchangeable
when both reach at least as far as the largest cutoff. -/
theorem interchangeable_of_reach {law : PairLaw ℝ} {left right : Potential law (NeighborList ℝ)}
    {system : ParticleSystem ℝ} (checked : left.checkSystem system = .ok ())
    (table : left.table = right.table) (shiftMode : left.shiftMode = right.shiftMode)
    (mode : left.source.mode = right.source.mode) (newList : left.source.builtFor = none)
    (newListToo : right.source.builtFor = none) (reaches : left.maxCutoff ≤ left.source.reach)
    (reachesToo : left.maxCutoff ≤ right.source.reach) (timestep other : Nat) :
    left.Interchangeable right timestep other system := by
  have rebuilt := source_refreshed_of_stale
    (NeighborList.isCurrent_of_forgotten newList timestep system)
  have rebuiltToo := source_refreshed_of_stale
    (NeighborList.isCurrent_of_forgotten newListToo other system)
  constructor
  case table => exact table
  case shiftMode => exact shiftMode
  case mode =>
    rw [rebuilt, rebuiltToo]
    exact mode
  case size => exact left.source.size_lists_refresh timestep system
  case sizeToo => exact right.source.size_lists_refresh other system
  case candidates =>
    rw [rebuilt, rebuiltToo]
    have fit : ((left.refreshed timestep system).pairSum system).CutoffsFit :=
      cutoffsFit_of_checked checked
    have typed : ((left.refreshed timestep system).pairSum system).WellTyped :=
      (checkSystem_eq_ok_iff.1 checked).1
    exact sameCandidates_build fit typed mode (rcutsq_le_mul_self reaches)
      (rcutsq_le_mul_self reachesToo) timestep other

/-- Partners at or beyond the cutoff do not influence the forces, whatever the
arithmetic, the law and the sources.  So in exact arithmetic the radii of new
lists do not, as long as the lists reach at least as far as the largest
cutoff. -/
theorem sameForces_of_candidates_and_of_reach :
    (∀ (α : Type) [Scalar α] (law : PairLaw α) (ν μ : Type) [NeighborSource ν α]
      [NeighborSource μ α] (left : Potential law ν) (right : Potential law μ)
      (timestep other : Nat) (system : ParticleSystem α),
      left.Interchangeable right timestep other system →
      left.SameForces right timestep other system) ∧
    ∀ (law : PairLaw ℝ) (left right : Potential law (NeighborList ℝ)) (timestep other : Nat)
      (system : ParticleSystem ℝ), left.table = right.table → left.shiftMode = right.shiftMode →
      left.source.mode = right.source.mode → left.source.builtFor = none →
      right.source.builtFor = none → left.maxCutoff ≤ left.source.reach →
      left.maxCutoff ≤ right.source.reach → left.SameForces right timestep other system := by
  constructor
  · intro α _ law ν μ _ _ left right timestep other system same
    exact sameForces_of_interchangeable same
  · intro law left right timestep other system table shiftMode mode newList newListToo reaches
      reachesToo
    cases checked : left.checkSystem system with
    | error error =>
        have checkedToo := (checkSystem_congr table system).symm.trans checked
        exact .inl ⟨error, computeForces_of_rejected checked timestep,
          computeForces_of_rejected checkedToo other⟩
    | ok _ =>
        exact sameForces_of_interchangeable
          (interchangeable_of_reach checked table shiftMode mode newList newListToo reaches
            reachesToo timestep other)

/-! ## A row of three and two lists -/

open ParticleSystem (trimer realCube)

/-- The repulsive potential with a list of twice the reach. -/
noncomputable def widened : Potential (PairLaw.lennardJones : PairLaw ℝ) (NeighborList ℝ) :=
  (repulsive .half).editSource fun list => list.setRadii list.reach list.reach

/-- The ends of the row are within the reach of the second list only. -/
theorem sameForces_widened :
    (repulsive .half).Interchangeable widened 0 1 (trimer realCube (7 / 4)) ∧
      (repulsive .half).SameForces widened 0 1 (trimer realCube (7 / 4)) ∧
      (repulsive .half).maxCutoff ≤ (repulsive .half).source.reach ∧
      (repulsive .half).maxCutoff ≤ widened.source.reach ∧
      ∀ system, (repulsive .half).SameForces widened 0 1 system := by
  have reaches : (repulsive .half).maxCutoff ≤ (repulsive .half).source.reach := by
    rw [maxCutoff_repulsive]
    change (2 : ℝ) ≤ ((2 : ℕ) : ℝ) + ((1 : ℕ) : ℝ)
    norm_num
  have reachesToo : (repulsive .half).maxCutoff ≤ widened.source.reach := by
    have further : widened.source.reach =
        (repulsive .half).source.reach + (repulsive .half).source.reach := rfl
    have nonneg : 0 ≤ (repulsive .half).maxCutoff := maxCutoff_nonneg
    rw [further]
    linarith
  have checked : (repulsive .half).checkSystem (trimer realCube (7 / 4)) = .ok () :=
    checkSystem_repulsive .half rfl rfl
  have same : (repulsive .half).Interchangeable widened 0 1 (trimer realCube (7 / 4)) := by
    apply interchangeable_of_reach checked
    case reaches => exact reaches
    case reachesToo => exact reachesToo
    all_goals rfl
  rcases sameForces_of_candidates_and_of_reach with ⟨general, inExactArithmetic⟩
  refine ⟨same, general _ _ _ _ _ _ _ _ _ same, reaches, reachesToo, ?_⟩
  intro system
  exact inExactArithmetic _ _ _ _ _ system rfl rfl rfl rfl rfl reaches reachesToo

/-! ## A distance that compares with nothing -/

open ParticleSystem (dimer floatCube)

/-- A dimer whose second particle has no number for its place. -/
def unplaced : ParticleSystem Float :=
  dimer floatCube (0 / 0)

/-- The lists that were built for the timestep while it had one. -/
def builtBefore : Potential (PairLaw.lennardJones : PairLaw Float) (NeighborList Float) :=
  (unitRepulsion .half).refreshed 1 (dimer floatCube 1)

/-- No lists yet. -/
def notBuilt : Potential (PairLaw.lennardJones : PairLaw Float) (NeighborList Float) :=
  unitRepulsion .half

theorem exists_done_of_energy {potential : Potential law ν} {vanishes : Bool}
    (checked : potential.checkSystem system = .ok ())
    (sized : NeighborSource.size (potential.refreshed timestep system).source = system.size)
    (energy :
      (potential.computedResults timestep system).map (·.totalEnergy == 0) = .ok vanishes) :
    ∃ final, potential.computeForces timestep system = .ok (.done () final) ∧
      (final.results.totalEnergy == 0) = vanishes := by
  rcases map_eq_ok_iff.1 energy with ⟨results, summed, found⟩
  exact ⟨_, computeForces_eq_done_iff.2 ⟨checked, sized, results, summed, rfl⟩, found⟩

/-- It is not enough that the sources agree on the partners below the cutoff.
Here no partner is below, and the list that was built before has one partner
more: its distance compares with nothing, it is not passed over, and the energy
is no number. -/
theorem results_ne_of_below_eq :
    builtBefore.table = notBuilt.table ∧ builtBefore.shiftMode = notBuilt.shiftMode ∧
      NeighborSource.mode (builtBefore.refreshed 1 unplaced).source =
        NeighborSource.mode (notBuilt.refreshed 1 unplaced).source ∧
      NeighborSource.size (builtBefore.refreshed 1 unplaced).source = unplaced.size ∧
      NeighborSource.size (notBuilt.refreshed 1 unplaced).source = unplaced.size ∧
      Covers (NeighborSource.neighbors (builtBefore.refreshed 1 unplaced).source) unplaced.size ∧
      Covers (NeighborSource.neighbors (notBuilt.refreshed 1 unplaced).source) unplaced.size ∧
      (∀ i < unplaced.size,
        (builtBefore.pairSum unplaced).below i
            (listed (NeighborSource.neighbors (builtBefore.refreshed 1 unplaced).source) i) =
          (builtBefore.pairSum unplaced).below i
            (listed (NeighborSource.neighbors (notBuilt.refreshed 1 unplaced).source) i)) ∧
      ∃ final finalToo, builtBefore.computeForces 1 unplaced = .ok (.done () final) ∧
        notBuilt.computeForces 1 unplaced = .ok (.done () finalToo) ∧
        final.results ≠ finalToo.results := by
  have new : notBuilt.source.InRange := NeighborList.inRange_create 2 1 .half
  have built : builtBefore.source.InRange := NeighborList.inRange_refresh new 1 (dimer floatCube 1)
  have checked : notBuilt.checkSystem unplaced = .ok () :=
    checkSystem_eq_ok_iff.2 ⟨by decide, by decide +kernel⟩
  have table : builtBefore.table = notBuilt.table := rfl
  have checkedToo : builtBefore.checkSystem unplaced = .ok () :=
    (checkSystem_congr table unplaced).trans checked
  have size : NeighborSource.size (builtBefore.refreshed 1 unplaced).source = unplaced.size :=
    builtBefore.source.size_lists_refresh 1 unplaced
  have sizeToo : NeighborSource.size (notBuilt.refreshed 1 unplaced).source = unplaced.size :=
    notBuilt.source.size_lists_refresh 1 unplaced
  have noNumber : (builtBefore.computedResults 1 unplaced).map (·.totalEnergy == 0) =
      .ok false := by
    decide +kernel
  have zero : (notBuilt.computedResults 1 unplaced).map (·.totalEnergy == 0) = .ok true := by
    decide +kernel
  rcases exists_done_of_energy checkedToo size noNumber with ⟨final, computed, energy⟩
  rcases exists_done_of_energy checked sizeToo zero with ⟨finalToo, computedToo, energyToo⟩
  have mode : NeighborSource.mode (builtBefore.refreshed 1 unplaced).source =
      NeighborSource.mode (notBuilt.refreshed 1 unplaced).source := by
    decide +kernel
  refine ⟨table, rfl, mode, size, sizeToo, (wellTyped_and_covers_refreshed built checkedToo 1).2,
    (wellTyped_and_covers_refreshed new checked 1).2, by decide +kernel, final, finalToo, computed,
    computedToo, ?_⟩
  intro same
  rw [same, energyToo] at energy
  cases energy

end Potential

end Nonbonded
