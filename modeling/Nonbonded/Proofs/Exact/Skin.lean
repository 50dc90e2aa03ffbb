import Nonbonded.Proofs.Exact.LatticeSum
import Nonbonded.Proofs.Exact.Length
import Nonbonded.Proofs.Exact.Translation
import Nonbonded.Proofs.NeighborList.Origin

/-!
# Lists that outlive their positions

A list is built with a reach of the cutoff and a buffer.  While no particle has
moved by more than half of the buffer, up to whole box lengths, every pair
within the cutoff is still listed, and a computation that keeps the list leaves
the results of one that rebuilds it.

The image of a pair that is nearest now need not be the one that was nearest
when the list was built.  By the triangle inequality its counterpart was within
the reach then, and the nearest image was no further away: this is where the
positions then have to be within three half box lengths of each other.  Nothing
of the kind is asked of the positions now.
-/

namespace Nonbonded

/-! ## Drift -/

namespace ParticleSystem

/-- Any two particles are within three half box lengths of each other on every
axis. -/
def IsGathered (system : ParticleSystem ℝ) : Prop :=
  ∀ i j here there, system.position i = .ok here → system.position j = .ok there →
    ∀ axis, |(here - there).get axis| ≤ 3 * system.box.halfLength axis

theorem isGathered_of_withinBox {system : ParticleSystem ℝ} (within : system.WithinBox) :
    system.IsGathered := by
  intro i j here there atHere atThere axis
  have short := abs_get_sub_lt within atHere atThere axis
  rw [Box.halfLength]
  linarith [system.box.lengths_pos axis]

/-- In a gathered system no image of a displacement is shorter than the wrapped
one. -/
theorem IsGathered.normSq_minimumImage_le {system : ParticleSystem ℝ}
    (gathered : system.IsGathered) {i j : Nat} {here there : Vec3 ℝ}
    (atHere : system.position i = .ok here) (atThere : system.position j = .ok there)
    (cell : Axis → ℤ) :
    (system.box.minimumImage (here - there)).normSq ≤
      (system.box.image (here - there) cell).normSq := by
  apply Box.normSq_minimumImage_le
  intro axis
  have bound := gathered i j here there atHere atThere axis
  rw [Box.halfLength] at bound
  linarith

/-- Every particle has moved by at most a bound, up to whole box lengths. -/
structure Drifted (earlier later : ParticleSystem ℝ) (bound : ℝ) : Prop where
  box : earlier.box = later.box
  size : earlier.size = later.size
  drift : ∀ i before now, earlier.position i = .ok before → later.position i = .ok now →
    ∃ cell, (earlier.box.image (now - before) cell).length ≤ bound

namespace Drifted

variable {earlier later : ParticleSystem ℝ} {bound : ℝ}

theorem exists_earlier (drifted : earlier.Drifted later bound) {i : Nat} {now : Vec3 ℝ}
    (atNow : later.position i = .ok now) : ∃ before, earlier.position i = .ok before := by
  have inRange := lt_size_of_position atNow
  rw [← drifted.size] at inRange
  exact exists_position inRange

/-- Where there are particles the bound is not negative. -/
theorem bound_nonneg (drifted : earlier.Drifted later bound) {i : Nat}
    (inRange : i < earlier.size) : 0 ≤ bound := by
  rcases exists_position inRange with ⟨before, atBefore⟩
  rw [drifted.size] at inRange
  rcases exists_position inRange with ⟨now, atNow⟩
  rcases drifted.drift i before now atBefore atNow with ⟨cell, short⟩
  exact (Real.sqrt_nonneg _).trans short

/-- The nearest image of a pair now was an image of it that was longer by at
most twice the bound. -/
theorem exists_image (drifted : earlier.Drifted later bound) {i j : Nat}
    {before now beforeOther nowOther : Vec3 ℝ} (atBefore : earlier.position i = .ok before)
    (atNow : later.position i = .ok now) (atBeforeOther : earlier.position j = .ok beforeOther)
    (atNowOther : later.position j = .ok nowOther) :
    ∃ cell, (earlier.box.image (before - beforeOther) cell).length ≤
      (later.box.minimumImage (now - nowOther)).length + 2 * bound := by
  rcases drifted.drift i before now atBefore atNow with ⟨cell, short⟩
  rcases drifted.drift j beforeOther nowOther atBeforeOther atNowOther with ⟨cellOther, shortOther⟩
  let wrapped := later.box.wrappedCell (now - nowOther)
  refine ⟨fun axis => wrapped axis - (cell axis - cellOther axis), ?_⟩
  have counterpart : earlier.box.image (before - beforeOther)
      (fun axis => wrapped axis - (cell axis - cellOther axis)) =
        later.box.minimumImage (now - nowOther) -
          (earlier.box.image (now - before) cell -
            earlier.box.image (nowOther - beforeOther) cellOther) := by
    rw [Box.minimumImage_eq_image, drifted.box]
    apply Vec3.eq_of_get
    intro axis
    simp only [Box.get_image, Vec3.get_sub]
    push_cast
    ring
  rw [counterpart]
  calc
    _ ≤ (later.box.minimumImage (now - nowOther)).length +
        (earlier.box.image (now - before) cell -
          earlier.box.image (nowOther - beforeOther) cellOther).length := Vec3.length_sub_le _ _
    _ ≤ (later.box.minimumImage (now - nowOther)).length +
        ((earlier.box.image (now - before) cell).length +
          (earlier.box.image (nowOther - beforeOther) cellOther).length) :=
      add_le_add le_rfl (Vec3.length_sub_le _ _)
    _ ≤ (later.box.minimumImage (now - nowOther)).length + 2 * bound := by linarith

end Drifted

end ParticleSystem

/-! ## Pairs on the list -/

namespace NeighborList

/-- A pair of particles is listed for its smaller index, and for both when
pairs are listed from both sides. -/
structure HasPair (list : NeighborList ℝ) (i j : Nat) : Prop where
  forward : max i j ∈ listed list.neighbors (min i j)
  backward : list.mode = .full → min i j ∈ listed list.neighbors (max i j)

theorem hasPair_build {list : NeighborList ℝ} {system : ParticleSystem ℝ} {i j : Nat}
    (hi : i < system.size) (hj : j < system.size) (different : i ≠ j)
    (near : nearAt list.reach system (min i j) (max i j) = true) (timestep : Nat) :
    (list.build timestep system).HasPair i j := by
  have ordered : min i j < max i j := by
    rw [min_lt_max]
    exact different
  constructor
  · rw [listed_build list timestep system (min_lt_of_left_lt hi), mem_partnersOf,
      enters_of_lt ordered]
    exact ⟨max_lt hi hj, near⟩
  · intro full
    have full : list.mode = .full := full
    rw [listed_build list timestep system (max_lt hi hj), mem_partnersOf, enters_of_gt ordered]
    exact ⟨min_lt_of_left_lt hi, by simp [full, near]⟩

variable {earlier later : ParticleSystem ℝ}

/-- A pair with an image within the reach is near, from whichever side it is
tested. -/
theorem nearAt_of_image {system : ParticleSystem ℝ} (gathered : system.IsGathered) {reach : ℝ}
    {i j : Nat} {here there : Vec3 ℝ} (atHere : system.position i = .ok here)
    (atThere : system.position j = .ok there) {cell : Axis → ℤ}
    (short : (system.box.image (here - there) cell).length < reach) :
    nearAt reach system (min i j) (max i j) = true := by
  have nonneg : 0 ≤ reach := (Real.sqrt_nonneg _).trans short.le
  have tested : ∀ {i j here there cell}, system.position i = .ok here →
      system.position j = .ok there → (system.box.image (here - there) cell).length < reach →
        nearAt reach system i j = true := by
    intro i j here there cell atHere atThere short
    rw [nearAt, entryAt_eq_ok_iff.1 atHere, entryAt_eq_ok_iff.1 atThere]
    exact decide_eq_true (lt_of_le_of_lt (gathered.normSq_minimumImage_le atHere atThere cell)
      ((Vec3.length_lt_iff nonneg).1 short))
  rcases le_total i j with below | above
  · rw [min_eq_left below, max_eq_right below]
    exact tested atHere atThere short
  · rw [min_eq_right above, max_eq_left above]
    rw [← Vec3.length_neg, ← Box.image_neg, Vec3.neg_sub_eq] at short
    exact tested atThere atHere short

/-- A pair that is within the cutoff now was within the reach. -/
theorem nearAt_of_drifted {list : NeighborList ℝ} (gathered : earlier.IsGathered)
    (drifted : earlier.Drifted later (list.buffer / 2)) {i j : Nat} {now nowOther : Vec3 ℝ}
    (atNow : later.position i = .ok now) (atNowOther : later.position j = .ok nowOther)
    (close : (later.box.minimumImage (now - nowOther)).length < list.cutoff) :
    nearAt list.reach earlier (min i j) (max i j) = true := by
  rcases drifted.exists_earlier atNow with ⟨before, atBefore⟩
  rcases drifted.exists_earlier atNowOther with ⟨beforeOther, atBeforeOther⟩
  rcases drifted.exists_image atBefore atNow atBeforeOther atNowOther with ⟨cell, short⟩
  apply nearAt_of_image gathered atBefore atBeforeOther
  calc
    (earlier.box.image (before - beforeOther) cell).length ≤
        (later.box.minimumImage (now - nowOther)).length + 2 * (list.buffer / 2) := short
    _ < list.cutoff + list.buffer := by linarith

end NeighborList

/-! ## The same results -/

namespace PairSum

variable {law : PairLaw ℝ} {sum : PairSum law}

/-- Partners that contribute are within the cutoff. -/
theorem exists_withinCutoff_of_contributes (typed : sum.WellTyped) {i j : Nat}
    (hi : i < sum.system.size) (hj : j < sum.system.size)
    (contributing : sum.contributes i j = true) :
    ∃ offset, sum.separation i j = .ok offset ∧ sum.WithinCutoff i j offset.normSq := by
  rcases exists_reads typed hi hj with ⟨offset, entry, diameters, charges, reads⟩
  refine ⟨offset, reads.separation, (withinCutoff_iff reads).2 ?_⟩
  by_contra beyond
  rw [contributes, term_eq reads, if_pos (not_lt.1 beyond)] at contributing
  cases contributing

/-- A list that was built before a drift lists the same contributing partners,
in the same order, as one that is built after it. -/
theorem alike_of_drifted {list : NeighborList ℝ} {earlier : ParticleSystem ℝ}
    (gathered : earlier.IsGathered) (drifted : earlier.Drifted sum.system (list.buffer / 2))
    (fit : sum.CutoffsFit) (typed : sum.WellTyped) (nonneg : 0 ≤ list.cutoff)
    (cutoffs : ∀ entry ∈ sum.table.values, entry.rcutsq ≤ list.cutoff * list.cutoff)
    (timestep other : Nat) :
    Alike sum sum (list.build timestep earlier).neighbors
      (list.build other sum.system).neighbors := by
  apply alike_of_contributes
  intro i hi
  have hiEarlier : i < earlier.size := by
    rw [drifted.size]
    exact hi
  refine ⟨_, _, NeighborList.neighbors_build list timestep earlier hiEarlier,
    NeighborList.neighbors_build list other sum.system hi, ?_⟩
  rw [drifted.size]
  apply NeighborList.filter_partnersOf_congr
  intro j hj contributing different
  rcases exists_withinCutoff_of_contributes typed hi hj contributing with
    ⟨offset, separated, within⟩
  -- Before the drift the pair was within the reach; now it is within the
  -- cutoff, and so in reach too.
  have before : NeighborList.nearAt list.reach earlier (min i j) (max i j) = true := by
    rcases bind_eq_ok_iff.1 separated with ⟨now, atNow, separated⟩
    rcases bind_eq_ok_iff.1 separated with ⟨nowOther, atNowOther, separated⟩
    cases separated
    rcases within with ⟨entry, found, close⟩
    apply NeighborList.nearAt_of_drifted gathered drifted atNow atNowOther
    rw [Vec3.length_lt_iff nonneg]
    exact lt_of_lt_of_le close (cutoffs entry (mem_values_of_entry found))
  have after : NeighborList.nearAt list.reach sum.system (min i j) (max i j) = true := by
    have buffer := drifted.bound_nonneg hiEarlier
    have reaches : ∀ entry ∈ sum.table.values, entry.rcutsq ≤ list.reach * list.reach := by
      intro entry stored
      have within : list.cutoff ≤ list.cutoff + list.buffer := by linarith
      exact (cutoffs entry stored).trans (mul_self_le_mul_self nonneg within)
    exact nearAt_of_withinCutoff (i := ⟨i, hi⟩) (j := ⟨j, hj⟩) fit reaches separated within
  rw [before, after]

end PairSum

namespace Potential

variable {law : PairLaw ℝ} {potential : Potential law (NeighborList ℝ)} {list : NeighborList ℝ}
  {earlier later : ParticleSystem ℝ} {timestep : Nat}

/-- A list that was built for the timestep and as many particles is kept. -/
theorem source_refreshed_of_built (size : earlier.size = later.size)
    (built : potential.source = list.build timestep earlier) :
    (potential.refreshed timestep later).source = list.build timestep earlier := by
  have current : potential.source.isCurrent timestep later = true := by
    rw [built, NeighborList.isCurrent_iff]
    exact ⟨rfl, (NeighborList.size_scan _ _ earlier).trans size⟩
  exact (NeighborList.refresh_of_current current).trans built

/-- A list that is made to forget is rebuilt with the same radii and mode. -/
theorem source_refreshed_of_forget (built : potential.source = list.build timestep earlier) :
    ((potential.editSource NeighborList.forget).refreshed timestep later).source =
      list.build timestep later := by
  have stale : (potential.editSource NeighborList.forget).source.isCurrent timestep later =
      false := rfl
  rw [source_refreshed_of_stale stale]
  change (NeighborList.forget potential.source).build timestep later = _
  rw [built]
  rfl

/-- The list that is kept and the one that is rebuilt treat every particle
alike. -/
theorem alike_kept_rebuilt (gathered : earlier.IsGathered)
    (drifted : earlier.Drifted later (list.buffer / 2))
    (built : potential.source = list.build timestep earlier)
    (cutoffs : potential.maxCutoff ≤ list.cutoff)
    (checked : potential.checkSystem later = .ok ()) :
    PairSum.Alike ((potential.refreshed timestep later).pairSum later)
      (((potential.editSource NeighborList.forget).refreshed timestep later).pairSum later)
      (NeighborSource.neighbors (potential.refreshed timestep later).source)
      (NeighborSource.neighbors
        ((potential.editSource NeighborList.forget).refreshed timestep later).source) := by
  have kept : (potential.refreshed timestep later).source = list.build timestep earlier :=
    source_refreshed_of_built drifted.size built
  have rebuilt :
      ((potential.editSource NeighborList.forget).refreshed timestep later).source =
        list.build timestep later :=
    source_refreshed_of_forget built
  have sameSum :
      ((potential.editSource NeighborList.forget).refreshed timestep later).pairSum later =
        (potential.refreshed timestep later).pairSum later := by
    rw [pairSum, pairSum, kept, rebuilt]
    rfl
  have fit : ((potential.refreshed timestep later).pairSum later).CutoffsFit :=
    cutoffsFit_of_checked checked
  have typed : ((potential.refreshed timestep later).pairSum later).WellTyped :=
    (checkSystem_eq_ok_iff.1 checked).1
  have within : ∀ entry ∈ potential.table.values, entry.rcutsq ≤ list.cutoff * list.cutoff :=
    rcutsq_le_mul_self cutoffs
  rw [sameSum, kept, rebuilt]
  exact PairSum.alike_of_drifted gathered drifted fit typed (maxCutoff_nonneg.trans cutoffs) within
    timestep timestep

/-- After every particle has moved by at most half of the buffer, up to whole
box lengths, a list still holds every pair within its cutoff.  So a potential
whose cutoffs are at most that of its list computes the same results from the
list it keeps for the timestep as from one that it is made to rebuild, also
when the sums are shared between workers. -/
theorem hasPair_and_results_of_drifted (gathered : earlier.IsGathered)
    (drifted : earlier.Drifted later (list.buffer / 2)) (timestep : Nat) :
    (∀ i j now nowOther, later.position i = .ok now → later.position j = .ok nowOther → i ≠ j →
      (later.box.minimumImage (now - nowOther)).length < list.cutoff →
        (list.build timestep earlier).HasPair i j) ∧
    ∀ (law : PairLaw ℝ) (potential : Potential law (NeighborList ℝ)),
      potential.source = list.build timestep earlier → potential.maxCutoff ≤ list.cutoff →
      potential.checkSystem later = .ok () →
      ∃ kept rebuilt, potential.computeForces timestep later = .ok (.done () kept) ∧
        kept.source = list.build timestep earlier ∧
        (potential.editSource NeighborList.forget).computeForces timestep later =
          .ok (.done () rebuilt) ∧
        rebuilt.source = list.build timestep later ∧ kept.results = rebuilt.results ∧
        ∀ schedule : Schedule, schedule.particles.Perm (List.range later.size) →
          (kept.pairSum later).sharedTotal (NeighborSource.neighbors kept.source) schedule =
              .ok kept.results ∧
            (rebuilt.pairSum later).sharedTotal (NeighborSource.neighbors rebuilt.source)
              schedule = .ok kept.results := by
  constructor
  · intro i j now nowOther atNow atNowOther different close
    have hi := ParticleSystem.lt_size_of_position atNow
    have hj := ParticleSystem.lt_size_of_position atNowOther
    rw [← drifted.size] at hi hj
    exact NeighborList.hasPair_build hi hj different
      (NeighborList.nearAt_of_drifted gathered drifted atNow atNowOther close) timestep
  · intro law potential built cutoffs checked
    have kept : (potential.refreshed timestep later).source = list.build timestep earlier :=
      source_refreshed_of_built drifted.size built
    have covers : Covers (NeighborSource.neighbors (potential.refreshed timestep later).source)
        later.size := by
      rw [kept, ← drifted.size]
      exact NeighborList.covers_build list timestep earlier
    have checkedToo : (potential.editSource NeighborList.forget).checkSystem later = .ok () :=
      checked
    rcases exists_results_of_alike checked checkedToo covers
      (alike_kept_rebuilt gathered drifted built cutoffs checked) with
      ⟨results, computed, computedToo, shared⟩
    exact ⟨_, _, computed, kept, computedToo, source_refreshed_of_forget built, rfl, shared⟩

/-! ## A dimer that drifts across the boundary -/

open ParticleSystem (dimerAt position_dimerAt realCube image_onFirstAxis minimumImage_onFirstAxis)

/-- Both particles move by half a length towards each other, across the
boundary, and the second one is given in the next cell of the lattice. -/
theorem drifted_dimerAt : (dimerAt (-4) (7 / 2)).Drifted (dimerAt (-9 / 2) (-6)) (1 / 2) where
  box := rfl
  size := rfl
  drift i before now atBefore atNow := by
    have moved : ∀ x y : ℝ, ∀ m : ℤ, |y - x + m * 10| ≤ 1 / 2 →
        (realCube.image (.onFirstAxis y - .onFirstAxis x)
          fun axis => if axis = 0 then m else 0).length ≤ 1 / 2 := by
      intro x y m short
      rw [Vec3.onFirstAxis_sub, image_onFirstAxis, Vec3.length, Vec3.normSq_onFirstAxis,
        Real.sqrt_sq_eq_abs]
      exact short
    rcases position_dimerAt atBefore with ⟨rfl, rfl⟩ | ⟨rfl, rfl⟩
    · cases atNow
      exact ⟨_, moved (-4) (-9 / 2) 0 (by norm_num)⟩
    · cases atNow
      exact ⟨_, moved (7 / 2) (-6) 1 (by norm_num)⟩

/-- The pair was beyond the cutoff of the list, and within its reach, when the
list was built. -/
theorem hasPair_and_results_of_drifted_dimerAt :
    (dimerAt (-4) (7 / 2)).IsGathered ∧
      (dimerAt (-4) (7 / 2)).Drifted (dimerAt (-9 / 2) (-6))
        ((repulsive .full).source.buffer / 2) ∧
      ((repulsive .full).source.build 7 (dimerAt (-4) (7 / 2))).HasPair 0 1 ∧
      ((repulsive .full).refreshed 7 (dimerAt (-4) (7 / 2))).maxCutoff ≤
        (repulsive .full).source.cutoff ∧
      ((repulsive .full).refreshed 7 (dimerAt (-4) (7 / 2))).checkSystem (dimerAt (-9 / 2) (-6)) =
        .ok () ∧
      ∃ kept rebuilt,
        ((repulsive .full).refreshed 7 (dimerAt (-4) (7 / 2))).computeForces 7
            (dimerAt (-9 / 2) (-6)) = .ok (.done () kept) ∧
          (((repulsive .full).refreshed 7 (dimerAt (-4) (7 / 2))).editSource
            NeighborList.forget).computeForces 7 (dimerAt (-9 / 2) (-6)) = .ok (.done () rebuilt) ∧
          kept.results = rebuilt.results := by
  have gathered : (dimerAt (-4) (7 / 2)).IsGathered :=
    ParticleSystem.isGathered_of_withinBox (withinBox_dimerAt (by norm_num) (by norm_num))
  have drifted : (dimerAt (-4) (7 / 2)).Drifted (dimerAt (-9 / 2) (-6))
      ((repulsive .full).source.buffer / 2) := by
    have buffer : (repulsive .full).source.buffer = 1 := Scalar.one_real
    rw [buffer]
    exact drifted_dimerAt
  have built : ((repulsive .full).refreshed 7 (dimerAt (-4) (7 / 2))).source =
      (repulsive .full).source.build 7 (dimerAt (-4) (7 / 2)) :=
    source_refreshed_of_stale rfl
  have cutoff : (repulsive .full).source.cutoff = 2 := by
    change ((2 : ℕ) : ℝ) = 2
    norm_num
  have cutoffs : ((repulsive .full).refreshed 7 (dimerAt (-4) (7 / 2))).maxCutoff ≤
      (repulsive .full).source.cutoff := by
    rw [cutoff]
    exact (maxCutoff_repulsive .full).le
  have checked : ((repulsive .full).refreshed 7 (dimerAt (-4) (7 / 2))).checkSystem
      (dimerAt (-9 / 2) (-6)) = .ok () := by
    have fits : (repulsive .full).checkSystem (dimerAt (-9 / 2) (-6)) = .ok () :=
      checkSystem_repulsive .full rfl rfl
    exact fits
  have close : ((dimerAt (-9 / 2) (-6)).box.minimumImage
      (.onFirstAxis (-9 / 2) - .onFirstAxis (-6))).length < (repulsive .full).source.cutoff := by
    have box : (dimerAt (-9 / 2) (-6)).box = realCube := rfl
    rw [box, Vec3.onFirstAxis_sub, minimumImage_onFirstAxis (by norm_num), Vec3.length,
      Vec3.normSq_onFirstAxis, Real.sqrt_sq_eq_abs, cutoff]
    norm_num
  rcases hasPair_and_results_of_drifted gathered drifted 7 with ⟨pairs, results⟩
  rcases results _ _ built cutoffs checked with
    ⟨kept, rebuilt, computed, -, computedToo, -, same, -⟩
  exact ⟨gathered, drifted, pairs 0 1 _ _ rfl rfl (by decide) close, cutoffs, checked, kept,
    rebuilt, computed, computedToo, same⟩

end Potential

end Nonbonded
