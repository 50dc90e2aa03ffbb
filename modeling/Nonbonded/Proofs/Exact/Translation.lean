import Nonbonded.Proofs.Exact.Schedules
import Nonbonded.Proofs.Exact.StorageModes
import Nonbonded.Proofs.PairSum.Congruence

/-!
# Translations of a system

When all particles of a system are moved by one vector, and each is put back
into the box by whole box lengths of its own, a computation from the beginning
comes to the same: the same refusal, or the same lists and the same results.

Displacements change, by whole box lengths, and that is why both systems have
to be in the box, on every axis from its low corner, included, to its high
corner.  Then every displacement is shorter than the box, so wrapping finds the
same image in both.  Which image it is does not matter, and so neither do the
law, the cutoffs and the reach of the list.
-/

namespace Nonbonded

namespace ParticleSystem

/-- Every particle is in the box, which has its low faces but not its high
ones. -/
def WithinBox (system : ParticleSystem ℝ) : Prop :=
  ∀ i here, system.position i = .ok here →
    ∀ axis, system.box.lo.get axis ≤ here.get axis ∧ here.get axis < system.box.hi.get axis

/-- The second system is the first one with all particles moved by one vector,
and each of them then moved by whole box lengths. -/
structure IsTranslate (first second : ParticleSystem ℝ) (shift : Vec3 ℝ) : Prop where
  box : first.box = second.box
  typeCount : first.typeCount = second.typeCount
  types : first.types = second.types
  diameters : first.diameters = second.diameters
  charges : first.charges = second.charges
  position : ∀ i here, first.position i = .ok here →
    ∃ cell, second.position i = .ok (first.box.image (here + shift) cell)

/-- Two particles in a box are less than a box length apart on every axis. -/
theorem abs_get_sub_lt {system : ParticleSystem ℝ} (within : system.WithinBox) {i j : Nat}
    {here there : Vec3 ℝ} (atHere : system.position i = .ok here)
    (atThere : system.position j = .ok there) (axis : Axis) :
    |(here - there).get axis| < system.box.lengths.get axis := by
  rcases within i here atHere axis with ⟨lowHere, highHere⟩
  rcases within j there atThere axis with ⟨lowThere, highThere⟩
  rw [Vec3.get_sub, Box.lengths, Vec3.get_sub, abs_lt]
  constructor <;> linarith

namespace IsTranslate

variable {first second : ParticleSystem ℝ} {shift : Vec3 ℝ}

theorem size (moved : first.IsTranslate second shift) : first.size = second.size := by
  rw [ParticleSystem.size, ParticleSystem.size, ← first.size_types, ← second.size_types,
    moved.types]

theorem typeOf (moved : first.IsTranslate second shift) : first.typeOf = second.typeOf := by
  funext i
  rw [ParticleSystem.typeOf, ParticleSystem.typeOf, moved.types]

theorem diameter (moved : first.IsTranslate second shift) : first.diameter = second.diameter := by
  funext i
  rw [ParticleSystem.diameter, ParticleSystem.diameter, moved.diameters]

theorem charge (moved : first.IsTranslate second shift) : first.charge = second.charge := by
  funext i
  rw [ParticleSystem.charge, ParticleSystem.charge, moved.charges]

/-- The displacements of two particles in the two systems have the same nearest
image. -/
theorem minimumImage_sub (moved : first.IsTranslate second shift) (within : first.WithinBox)
    (withinToo : second.WithinBox) {i j : Nat} {here there movedHere movedThere : Vec3 ℝ}
    (atHere : first.position i = .ok here) (atThere : first.position j = .ok there)
    (atMovedHere : second.position i = .ok movedHere)
    (atMovedThere : second.position j = .ok movedThere) :
    first.box.minimumImage (here - there) =
      second.box.minimumImage (movedHere - movedThere) := by
  rcases moved.position i here atHere with ⟨cellHere, foundHere⟩
  rcases moved.position j there atThere with ⟨cellThere, foundThere⟩
  cases foundHere.symm.trans atMovedHere
  cases foundThere.symm.trans atMovedThere
  -- The common vector drops out of the displacement, the box lengths of the
  -- two particles do not.
  have displaced : first.box.image (here + shift) cellHere -
      first.box.image (there + shift) cellThere =
        first.box.image (here - there) fun axis => cellHere axis - cellThere axis := by
    apply Vec3.eq_of_get
    intro axis
    rw [Vec3.get_sub, Box.get_image, Box.get_image, Box.get_image, Vec3.get_add, Vec3.get_add,
      Vec3.get_sub]
    push_cast
    ring
  have short := abs_get_sub_lt withinToo atMovedHere atMovedThere
  rw [displaced, ← moved.box] at short
  rw [displaced, ← moved.box,
    Box.minimumImage_image (abs_get_sub_lt within atHere atThere) short]

/-- A particle has a place in both systems or in neither. -/
theorem position_cases (moved : first.IsTranslate second shift) (i : Nat) :
    (∃ here movedHere, first.position i = .ok here ∧ second.position i = .ok movedHere) ∨
    ∃ fault, first.position i = .error fault ∧ second.position i = .error fault := by
  by_cases inRange : i < first.size
  · rcases exists_position inRange with ⟨here, atHere⟩
    rw [moved.size] at inRange
    rcases exists_position inRange with ⟨movedHere, atMovedHere⟩
    exact .inl ⟨here, movedHere, atHere, atMovedHere⟩
  · have past : first.positions[i]? = none := Array.getElem?_eq_none (Nat.not_lt.1 inRange)
    have sized := moved.size
    rw [sized] at inRange
    have pastToo : second.positions[i]? = none := Array.getElem?_eq_none (Nat.not_lt.1 inRange)
    refine .inr ⟨.outOfRange i first.size, ?_, ?_⟩
    · rw [ParticleSystem.position, entryAt, past]
      rfl
    · rw [ParticleSystem.position, entryAt, pastToo, sized]
      rfl

end IsTranslate

end ParticleSystem

namespace PairSum

variable {law : PairLaw ℝ} {left right : PairSum law} {shift : Vec3 ℝ}

theorem separation_of_translate (moved : left.system.IsTranslate right.system shift)
    (within : left.system.WithinBox) (withinToo : right.system.WithinBox) (i j : Nat) :
    left.separation i j = right.separation i j := by
  rw [separation, separation]
  rcases moved.position_cases i with
    ⟨here, movedHere, atHere, atMovedHere⟩ | ⟨fault, atHere, atMovedHere⟩
  · rw [atHere, atMovedHere, bind_ok, bind_ok]
    rcases moved.position_cases j with
      ⟨there, movedThere, atThere, atMovedThere⟩ | ⟨fault, atThere, atMovedThere⟩
    · rw [atThere, atMovedThere, bind_ok, bind_ok,
        moved.minimumImage_sub within withinToo atHere atThere atMovedHere atMovedThere]
    · rw [atThere, atMovedThere]
      rfl
  · rw [atHere, atMovedHere]
    rfl

theorem term_of_translate (moved : left.system.IsTranslate right.system shift)
    (within : left.system.WithinBox) (withinToo : right.system.WithinBox)
    (table : left.table = right.table) (shiftMode : left.shiftMode = right.shiftMode) (i j : Nat) :
    left.term i j = right.term i j :=
  term_congr table shiftMode (separation_of_translate moved within withinToo) moved.typeOf
    moved.diameter moved.charge i j

end PairSum

namespace Potential

variable {law : PairLaw ℝ} {potential : Potential law (NeighborList ℝ)}
  {first second : ParticleSystem ℝ} {shift : Vec3 ℝ}

theorem checkSystem_of_translate (potential : Potential law (NeighborList ℝ))
    (moved : first.IsTranslate second shift) :
    potential.checkSystem first = potential.checkSystem second := by
  rw [checkSystem, checkSystem, moved.typeCount, moved.box]

/-- The lists that are rebuilt for two translates are the same. -/
theorem lists_build_of_translate (potential : Potential law (NeighborList ℝ))
    (moved : first.IsTranslate second shift) (within : first.WithinBox)
    (withinToo : second.WithinBox) (timestep other : Nat) :
    (potential.source.build timestep first).lists =
      (potential.source.build other second).lists := by
  have separation : ∀ i j, (potential.pairSum first).separation i j =
      (potential.pairSum second).separation i j :=
    PairSum.separation_of_translate moved within withinToo
  exact NeighborList.scan_congr_separation moved.size separation _ _

/-- Over rebuilt lists the sums for two translates treat every particle
alike. -/
theorem alike_of_translate (moved : first.IsTranslate second shift) (within : first.WithinBox)
    (withinToo : second.WithinBox) {timestep other : Nat}
    (stale : potential.source.isCurrent timestep first = false)
    (staleToo : potential.source.isCurrent other second = false) :
    PairSum.Alike ((potential.refreshed timestep first).pairSum first)
      ((potential.refreshed other second).pairSum second)
      (NeighborSource.neighbors (potential.refreshed timestep first).source)
      (NeighborSource.neighbors (potential.refreshed other second).source) := by
  have lists := lists_build_of_translate potential moved within withinToo timestep other
  apply PairSum.alike_of_term
  · exact moved.size
  · change NeighborSource.mode (potential.refreshed timestep first).source =
      NeighborSource.mode (potential.refreshed other second).source
    rw [source_refreshed_of_stale stale, source_refreshed_of_stale staleToo]
    rfl
  · exact PairSum.term_of_translate moved within withinToo rfl rfl
  · intro i
    rw [source_refreshed_of_stale stale, source_refreshed_of_stale staleToo]
    change entryAt _ i = entryAt _ i
    rw [lists]

/-- A new potential that computes a system and its translate refuses both with
the same error, or finishes both with the same lists and the same results, also
when the sums are shared between workers. -/
theorem compute_of_translate (newPotential : potential.computedFor = none)
    (newList : potential.source.builtFor = none) (moved : first.IsTranslate second shift)
    (within : first.WithinBox) (withinToo : second.WithinBox) (timestep other : Nat) :
    (∃ error, potential.compute timestep first = .ok (.refuse error potential) ∧
      potential.compute other second = .ok (.refuse error potential)) ∨
    ∃ final finalToo, potential.compute timestep first = .ok (.done () final) ∧
      potential.compute other second = .ok (.done () finalToo) ∧
      final.source.lists = finalToo.source.lists ∧ final.results = finalToo.results ∧
      ∀ schedule : Schedule, schedule.particles.Perm (List.range first.size) →
        (final.pairSum first).sharedTotal (NeighborSource.neighbors final.source) schedule =
            .ok final.results ∧
          (finalToo.pairSum second).sharedTotal (NeighborSource.neighbors finalToo.source)
            schedule = .ok final.results := by
  have forgotten : ∀ timestep, potential.computedFor ≠ some timestep := by
    intro timestep
    rw [newPotential]
    exact nofun
  have stale : ∀ timestep system, potential.source.isCurrent timestep system = false := by
    intro timestep system
    rw [NeighborList.isCurrent, newList]
    rfl
  have sameCheck := checkSystem_of_translate potential moved
  cases checked : potential.checkSystem first with
  | error error =>
      rw [checked] at sameCheck
      exact .inl ⟨error,
        compute_of_refused (forgotten _) (computeForces_of_rejected checked timestep),
        compute_of_refused (forgotten _) (computeForces_of_rejected sameCheck.symm other)⟩
  | ok _ =>
      rw [checked] at sameCheck
      have alike := alike_of_translate moved within withinToo (stale timestep first)
        (stale other second)
      rcases exists_results_of_alike checked sameCheck.symm
        (covers_refreshed_of_stale (stale timestep first)) alike with
        ⟨results, computed, computedToo, shared⟩
      have lists : (potential.refreshed timestep first).source.lists =
          (potential.refreshed other second).source.lists := by
        rw [source_refreshed_of_stale (stale timestep first),
          source_refreshed_of_stale (stale other second)]
        exact lists_build_of_translate potential moved within withinToo timestep other
      exact .inr ⟨_, _, compute_of_done (forgotten _) computed,
        compute_of_done (forgotten _) computedToo, lists, rfl, shared⟩

end Potential

/-! ## A dimer across the boundary -/

namespace ParticleSystem

/-- Moving along the first axis by lengths of the cube. -/
theorem image_onFirstAxis (x : ℝ) (m : ℤ) :
    realCube.image (.onFirstAxis x) (fun axis => if axis = 0 then m else 0) =
      .onFirstAxis (x + m * 10) := by
  apply Vec3.eq_of_get
  intro axis
  rw [Box.get_image, lengths_realCube, Vec3.get_onFirstAxis, Vec3.get_onFirstAxis]
  split
  · rfl
  · norm_num

/-- Two particles of one type at given places on the first axis. -/
noncomputable def dimerAt (first second : ℝ) : ParticleSystem ℝ :=
  { dimer realCube 1 with
    positions := #[.onFirstAxis first, .onFirstAxis second]
    size_types := rfl
    size_diameters := by simp [dimer]
    size_charges := by simp [dimer] }

theorem position_dimerAt {first second : ℝ} {i : Nat} {here : Vec3 ℝ}
    (found : (dimerAt first second).position i = .ok here) :
    (i = 0 ∧ here = .onFirstAxis first) ∨ (i = 1 ∧ here = .onFirstAxis second) := by
  match i with
  | 0 =>
      cases found
      exact .inl ⟨rfl, rfl⟩
  | 1 =>
      cases found
      exact .inr ⟨rfl, rfl⟩
  | _ + 2 => cases found

end ParticleSystem

namespace Potential

open ParticleSystem (dimerAt position_dimerAt realCube image_onFirstAxis)

theorem withinBox_dimerAt {first second : ℝ} (atFirst : -5 ≤ first ∧ first < 5)
    (atSecond : -5 ≤ second ∧ second < 5) : (dimerAt first second).WithinBox := by
  have along : ∀ x : ℝ, -5 ≤ x ∧ x < 5 → ∀ axis,
      (dimerAt first second).box.lo.get axis ≤ (Vec3.onFirstAxis x).get axis ∧
        (Vec3.onFirstAxis x).get axis < (dimerAt first second).box.hi.get axis := by
    intro x inside axis
    change (Vec3.ofAxes fun _ => (-5 : ℝ)).get axis ≤ _ ∧
      _ < (Vec3.ofAxes fun _ => (5 : ℝ)).get axis
    rw [Vec3.get_ofAxes, Vec3.get_ofAxes, Vec3.get_onFirstAxis]
    split
    · exact inside
    · norm_num
  intro i here found
  rcases position_dimerAt found with ⟨-, rfl⟩ | ⟨-, rfl⟩
  · exact along first atFirst
  · exact along second atSecond

/-- Moving the dimer towards the boundary takes its second particle through
it. -/
theorem isTranslate_dimerAt :
    (dimerAt 0 1).IsTranslate (dimerAt (9 / 2) (-9 / 2)) (.onFirstAxis (9 / 2)) where
  box := rfl
  typeCount := rfl
  types := rfl
  diameters := rfl
  charges := rfl
  position i here found := by
    have moved : ∀ x y : ℝ, ∀ m : ℤ, x + 9 / 2 + m * 10 = y →
        Vec3.onFirstAxis y = realCube.image (.onFirstAxis x + .onFirstAxis (9 / 2))
          fun axis => if axis = 0 then m else 0 := by
      rintro x y m rfl
      rw [Vec3.onFirstAxis_add, image_onFirstAxis]
    rcases position_dimerAt found with ⟨rfl, rfl⟩ | ⟨rfl, rfl⟩
    · exact ⟨_, congrArg Except.ok (moved 0 (9 / 2) 0 (by norm_num))⟩
    · exact ⟨_, congrArg Except.ok (moved 1 (-9 / 2) (-1) (by norm_num))⟩

theorem compute_of_translate_dimerAt :
    (repulsive .half).computedFor = none ∧ (repulsive .half).source.builtFor = none ∧
      (dimerAt 0 1).IsTranslate (dimerAt (9 / 2) (-9 / 2)) (.onFirstAxis (9 / 2)) ∧
      (dimerAt 0 1).WithinBox ∧ (dimerAt (9 / 2) (-9 / 2)).WithinBox ∧
      ∃ final finalToo, (repulsive .half).compute 0 (dimerAt 0 1) = .ok (.done () final) ∧
        (repulsive .half).compute 1 (dimerAt (9 / 2) (-9 / 2)) = .ok (.done () finalToo) ∧
        final.source.lists = finalToo.source.lists ∧ final.results = finalToo.results := by
  have newPotential : (repulsive .half).computedFor = none := rfl
  have newList : (repulsive .half).source.builtFor = none := rfl
  have within : (dimerAt 0 1).WithinBox := withinBox_dimerAt (by norm_num) (by norm_num)
  have withinToo : (dimerAt (9 / 2) (-9 / 2)).WithinBox :=
    withinBox_dimerAt (by norm_num) (by norm_num)
  refine ⟨newPotential, newList, isTranslate_dimerAt, within, withinToo, ?_⟩
  rcases compute_of_translate newPotential newList isTranslate_dimerAt within withinToo 0 1 with
    ⟨error, refused, -⟩ | ⟨final, finalToo, computed, computedToo, lists, results, -⟩
  · -- The cube holds the cutoff, so the dimer is not refused.
    have inRange : (repulsive .half).source.InRange := NeighborList.inRange_create _ _ .half
    have checked : (repulsive .half).checkSystem (dimerAt 0 1) = .ok () :=
      checkSystem_repulsive .half rfl rfl
    rcases exists_done_of_checked inRange checked 0 with ⟨final, forces⟩
    have forgotten : (repulsive .half).computedFor ≠ some 0 := by
      rw [newPotential]
      exact nofun
    have finished := compute_of_done forgotten forces
    cases congrArg Reply.answer (Except.ok.inj (refused.symm.trans finished))
  · exact ⟨final, finalToo, computed, computedToo, lists, results⟩

end Potential

end Nonbonded
