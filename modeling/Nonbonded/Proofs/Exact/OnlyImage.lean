import Nonbonded.Proofs.Exact.LatticeSum
import Nonbonded.Proofs.Exact.Length
import Nonbonded.Proofs.Exact.Translation

/-!
# The only image within a cutoff

Wrapping moves a displacement by at most one box length on each axis.  For
particles far outside the box it need not find a nearest image, and at half a
box length it does not commute with reversing the displacement.

Neither matters for a pair that passes the test against its cutoff, once the
system has passed the checks.  The cutoff is then at most half of every box
length, so the wrapped image lies strictly within half a box length on every
axis.  An image in another cell is further out than that on some axis, and
therefore beyond the cutoff.  Nothing is assumed about the positions.
-/

namespace Nonbonded

/-- When one image is inside, an image in another cell is more than half a box
length out on some axis. -/
theorem Box.exists_halfLength_lt_length {box : Box ℝ} {offset : Vec3 ℝ} {cell other : Axis → ℤ}
    (inside : box.Inside (box.image offset cell)) (different : other ≠ cell) :
    ∃ axis, box.halfLength axis < (box.image offset other).length := by
  rcases Function.ne_iff.1 different with ⟨axis, apart⟩
  have here : |offset.get axis + cell axis * box.lengths.get axis| < box.halfLength axis := by
    rw [← get_image]
    exact inside axis
  have out : box.halfLength axis < |(box.image offset other).get axis| := by
    by_contra within
    rw [get_image, not_lt] at within
    exact apart (eq_of_abs_add_mul here within).symm
  exact ⟨axis, out.trans_le (Vec3.abs_get_le_length _ axis)⟩

namespace PairSum

variable {law : PairLaw ℝ} {sum : PairSum law} {i j : Fin sum.system.size} {entry : PairEntry law}

/-- The wrapped displacement of two particles is its image in one cell of the
lattice, and shorter than a radius.  The images in all other cells are longer
than it, and at least as long as the radius. -/
def IsOnlyWithin (sum : PairSum law) (i j : Fin sum.system.size) (radius : ℝ) : Prop :=
  ∃ cell, sum.nearest i j = sum.imageOf i j cell ∧ (sum.nearest i j).length < radius ∧
    ∀ other ≠ cell, (sum.nearest i j).length < (sum.imageOf i j other).length ∧
      radius ≤ (sum.imageOf i j other).length

/-- With cutoffs that fit the box, a pair that passes the test has no other
image within the cutoff. -/
theorem isOnlyWithin_of_lt_cutoff (fit : sum.CutoffsFit) (found : sum.entry i j = .ok entry)
    (close : (sum.nearest i j).normSq < entry.rcutsq) :
    sum.IsOnlyWithin i j (Real.sqrt entry.rcutsq) := by
  have inside := inside_of_lt_cutoff fit found close
  rw [← imageOf_wrappedCell] at inside
  have short : (sum.nearest i j).length < Real.sqrt entry.rcutsq :=
    Real.sqrt_lt_sqrt (Vec3.normSq_nonneg _) close
  have long : ∀ other ≠ sum.system.box.wrappedCell (sum.system.displacement i j),
      Real.sqrt entry.rcutsq ≤ (sum.imageOf i j other).length := by
    intro other different
    rcases Box.exists_halfLength_lt_length inside different with ⟨axis, out⟩
    calc
      Real.sqrt entry.rcutsq ≤ sum.system.box.halfLength axis :=
        Real.sqrt_le_iff.2 ⟨(sum.system.box.halfLength_pos axis).le,
          fit entry (mem_values_of_entry found) axis⟩
      _ ≤ (sum.imageOf i j other).length := out.le
  exact ⟨_, (imageOf_wrappedCell i j).symm, short, fun other different =>
    ⟨short.trans_le (long other different), long other different⟩⟩

/-- With cutoffs that fit the box, a pair that passes the test is separated
oppositely from the other side. -/
theorem separation_eq_neg (fit : sum.CutoffsFit) (found : sum.entry i j = .ok entry)
    (close : (sum.nearest i j).normSq < entry.rcutsq) :
    sum.separation j i = .ok (-sum.nearest i j) := by
  rcases separation_swap fit found (separation_displacement sum i j) with
    ⟨reverse, separatedBack, opposite | ⟨beyond, -⟩⟩
  · rw [separatedBack, opposite]
    rfl
  · exact absurd close (not_lt.2 beyond)

/-- Two particles have one image of their displacement within their cutoff, and
the pair may be evaluated from either of them: the separation is reversed, and
the same test is passed. -/
structure WellSeparated (sum : PairSum law) (i j : Fin sum.system.size) (entry : PairEntry law) :
    Prop where
  isOnlyWithin : sum.IsOnlyWithin i j (Real.sqrt entry.rcutsq)
  minimumImage_swap :
    sum.system.box.minimumImage (sum.system.displacement j i) = -sum.nearest i j
  separation_swap : sum.separation j i = .ok (-sum.nearest i j)
  entry_swap : sum.entry j i = .ok entry
  close_swap : (-sum.nearest i j).normSq < entry.rcutsq

theorem wellSeparated_of_lt_cutoff (fit : sum.CutoffsFit) (found : sum.entry i j = .ok entry)
    (close : (sum.nearest i j).normSq < entry.rcutsq) : sum.WellSeparated i j entry where
  isOnlyWithin := isOnlyWithin_of_lt_cutoff fit found close
  minimumImage_swap :=
    Except.ok.inj ((separation_displacement sum j i).symm.trans
      (separation_eq_neg fit found close))
  separation_swap := separation_eq_neg fit found close
  entry_swap := entry_comm found
  close_swap := by
    rw [Vec3.normSq_neg]
    exact close

end PairSum

namespace Potential

variable {law : PairLaw ℝ} {ν : Type} [NeighborSource ν ℝ] {potential : Potential law ν}
  {system : ParticleSystem ℝ}

/-- In a system that passes the checks, wherever its particles are, any two of
them have a separation, which is the wrapped displacement, and settings with a
cutoff.  If the separation is below the cutoff, it is the shortest of all
images of the displacement, the other images are at or beyond the cutoff, and
from the other particle the separation is the opposite one and passes the same
test. -/
theorem wellSeparated_of_checked (checked : potential.checkSystem system = .ok ())
    (i j : Fin system.size) :
    let sum := potential.pairSum system
    let offset := system.box.minimumImage (system.displacement i j)
    sum.separation i j = .ok offset ∧ ∃ entry, sum.entry i j = .ok entry ∧
      (offset.normSq < entry.rcutsq → sum.WellSeparated i j entry) := by
  intro sum offset
  have fit : sum.CutoffsFit := cutoffsFit_of_checked checked
  have typed : sum.WellTyped := (checkSystem_eq_ok_iff.1 checked).1
  rcases PairSum.exists_entry typed i.isLt j.isLt with ⟨entry, found⟩
  exact ⟨PairSum.separation_displacement sum i j, entry, found,
    fun close => PairSum.wellSeparated_of_lt_cutoff fit found close⟩

open ParticleSystem (dimerAt realCube lengths_realCube)

/-- A particle more than a box length away from another, which has an image at
unit distance. -/
theorem wellSeparated_of_checked_dimerAt :
    let sum := (repulsive .half).pairSum (dimerAt 11 0)
    let i : Fin (dimerAt 11 0).size := ⟨0, Nat.succ_pos 1⟩
    let j : Fin (dimerAt 11 0).size := ⟨1, Nat.lt_succ_self 1⟩
    (repulsive .half).checkSystem (dimerAt 11 0) = .ok () ∧
      sum.separation i j = .ok (.onFirstAxis 1) ∧
      sum.IsOnlyWithin i j 2 ∧ sum.separation j i = .ok (-.onFirstAxis 1) := by
  intro sum i j
  have checked : (repulsive .half).checkSystem (dimerAt 11 0) = .ok () :=
    checkSystem_repulsive .half rfl rfl
  have wrapped : realCube.minimumImage ((dimerAt 11 0).displacement i j) = .onFirstAxis 1 := by
    change realCube.minimumImage (.onFirstAxis 11 - .onFirstAxis 0) = _
    apply Vec3.eq_of_get
    intro axis
    rw [Vec3.onFirstAxis_sub, Box.get_minimumImage, lengths_realCube, Vec3.get_onFirstAxis,
      Vec3.get_onFirstAxis, Box.wrap, Scalar.half_real]
    fin_cases axis <;> norm_num
  rcases wellSeparated_of_checked checked i j with ⟨separated, entry, found, separatesWell⟩
  have cutoffSq : entry.rcutsq = 2 * 2 := by
    have stored : entry ∈ (repulsive .half).table.values := PairSum.mem_values_of_entry found
    have four : entry.rcutsq = 4 := by
      rw [List.mem_singleton.1 (Array.mem_toList_iff.2 stored)]
    rw [four]
    norm_num
  have close : (realCube.minimumImage ((dimerAt 11 0).displacement i j)).normSq <
      entry.rcutsq := by
    rw [wrapped, Vec3.normSq_onFirstAxis, cutoffSq]
    norm_num
  have well := separatesWell close
  have only := well.isOnlyWithin
  rw [cutoffSq, Real.sqrt_mul_self two_pos.le] at only
  have here : sum.separation i j = .ok (.onFirstAxis 1) := by
    rw [← wrapped]
    exact separated
  have opposite : sum.separation j i = .ok (-.onFirstAxis 1) := by
    rw [← wrapped]
    exact well.separation_swap
  exact ⟨checked, here, only, opposite⟩

end Potential

end Nonbonded
