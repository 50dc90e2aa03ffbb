import Nonbonded.Proofs.Exact.Image
import Nonbonded.Proofs.Exact.Length

/-!
# When the wrapped image is nearest

Wrapping moves a displacement by at most one box length on each axis.  So it
finds a nearest image exactly when the displacement is within three half box
lengths on every axis: a component further out stays more than half a length
off, and one more length would bring it closer.

From minus three half lengths, included, to three half lengths, the wrapped
image lies in the cell of one box around the origin that has its lower faces,
and is wrapped to itself.  At three half lengths it is nearest as well, but
lies on an upper face, and wrapping it again moves it to the opposite one.
-/

namespace Nonbonded.Box

/-- Of an offset beyond three half periods some translate is shorter than the
wrapped one. -/
theorem exists_abs_add_mul_lt {period offset : ℝ} (positive : 0 < period)
    (far : 3 / 2 * period < |offset|) :
    ∃ m : ℤ, |offset + m * period| < |wrap period offset| := by
  rcases wrap_cases period offset with
    ⟨above, same⟩ | ⟨below, same⟩ | ⟨notBelow, notAbove, same⟩
  · rw [abs_of_pos (by linarith)] at far
    refine ⟨-2, ?_⟩
    have shorter : |offset + ((-2 : ℤ) : ℝ) * period| < offset - period := by
      push_cast
      rw [abs_lt]
      constructor <;> linarith
    rw [same]
    exact shorter.trans_le (le_abs_self _)
  · rw [abs_of_neg (by linarith)] at far
    refine ⟨2, ?_⟩
    have shorter : |offset + ((2 : ℤ) : ℝ) * period| < -(offset + period) := by
      push_cast
      rw [abs_lt]
      constructor <;> linarith
    rw [same]
    exact shorter.trans_le (neg_le_abs _)
  · have short : |offset| ≤ period / 2 := abs_le.2 ⟨notBelow, notAbove.le⟩
    linarith

/-- Wrapping leaves an offset alone from minus half a period, included, to half
a period. -/
theorem wrap_eq_self {period offset : ℝ} (low : -(period / 2) ≤ offset)
    (high : offset < period / 2) : wrap period offset = offset := by
  rcases wrap_cases period offset with
    ⟨above, -⟩ | ⟨below, -⟩ | ⟨-, -, same⟩
  · exact absurd high (not_lt.2 above)
  · exact absurd below (not_lt.2 low)
  · exact same

theorem wrap_mem_Ico {period offset : ℝ} (positive : 0 < period) (low : -(3 / 2 * period) ≤ offset)
    (high : offset < 3 / 2 * period) :
    -(period / 2) ≤ wrap period offset ∧ wrap period offset < period / 2 := by
  rw [wrap_eq_toIcoMod positive low high]
  rcases toIcoMod_mem_Ico positive (-(period / 2)) offset with ⟨atLeast, below⟩
  constructor
  · exact atLeast
  · linarith

/-- A vector is an image of a displacement, and no image is shorter. -/
def IsNearest (box : Box ℝ) (offset v : Vec3 ℝ) : Prop :=
  (∃ cell, v = box.image offset cell) ∧ ∀ cell, v.length ≤ (box.image offset cell).length

variable {box : Box ℝ} {offset : Vec3 ℝ}

/-- Of a displacement beyond three half box lengths on some axis, the image
that is shorter there and wrapped on the other axes is shorter than the wrapped
one. -/
theorem exists_image_lt {axis : Axis} (far : 3 / 2 * box.lengths.get axis < |offset.get axis|) :
    ∃ cell, (box.image offset cell).normSq < (box.minimumImage offset).normSq := by
  rcases exists_abs_add_mul_lt (box.lengths_pos axis) far with ⟨m, shorter⟩
  refine ⟨Function.update (box.wrappedCell offset) axis m, ?_⟩
  rw [Vec3.normSq_eq_sum, Vec3.normSq_eq_sum]
  apply Finset.sum_lt_sum
  · intro other _
    rw [minimumImage_eq_image, get_image, get_image]
    by_cases same : other = axis
    · subst same
      rw [Function.update_self, wrappedCell, ← wrap_eq_add]
      exact (sq_lt_sq.2 shorter).le
    · rw [Function.update_of_ne same]
  · refine ⟨axis, Finset.mem_univ axis, ?_⟩
    rw [get_minimumImage, get_image, Function.update_self]
    exact sq_lt_sq.2 shorter

theorem isNearest_minimumImage_iff :
    box.IsNearest offset (box.minimumImage offset) ↔
      ∀ axis, |offset.get axis| ≤ 3 / 2 * box.lengths.get axis := by
  constructor
  · rintro ⟨-, shortest⟩ axis
    by_contra far
    rcases exists_image_lt (not_le.1 far) with ⟨cell, shorter⟩
    exact absurd (Vec3.length_le_length_iff.1 (shortest cell)) (not_le.2 shorter)
  · intro near
    refine ⟨⟨_, minimumImage_eq_image box offset⟩, fun cell => ?_⟩
    exact Vec3.length_le_length_iff.2 (normSq_minimumImage_le near cell)

/-- On every axis the wrapped image differs from the displacement by whole box
lengths.  It is a nearest image exactly when the displacement is within three
half box lengths on every axis.  When every component is at least minus three
half lengths and less than three half lengths, the wrapped image lies in the
cell around the origin, lower faces included and upper ones not, and wrapping
it again changes nothing. -/
theorem minimumImage_nearest_and_reduced (box : Box ℝ) (offset : Vec3 ℝ) :
    (∀ axis, ∃ m : ℤ, (box.minimumImage offset).get axis =
      offset.get axis + m * box.lengths.get axis) ∧
    (box.IsNearest offset (box.minimumImage offset) ↔
      ∀ axis, |offset.get axis| ≤ 3 / 2 * box.lengths.get axis) ∧
    ((∀ axis, -(3 / 2 * box.lengths.get axis) ≤ offset.get axis ∧
        offset.get axis < 3 / 2 * box.lengths.get axis) →
      (∀ axis, -(box.lengths.get axis / 2) ≤ (box.minimumImage offset).get axis ∧
        (box.minimumImage offset).get axis < box.lengths.get axis / 2) ∧
      box.minimumImage (box.minimumImage offset) = box.minimumImage offset) := by
  refine ⟨?_, isNearest_minimumImage_iff, ?_⟩
  · intro axis
    refine ⟨box.wrappedCell offset axis, ?_⟩
    rw [minimumImage_eq_image, get_image]
  · intro within
    have reduced : ∀ axis, -(box.lengths.get axis / 2) ≤ (box.minimumImage offset).get axis ∧
        (box.minimumImage offset).get axis < box.lengths.get axis / 2 := by
      intro axis
      rw [get_minimumImage]
      exact wrap_mem_Ico (box.lengths_pos axis) (within axis).1 (within axis).2
    refine ⟨reduced, ?_⟩
    apply Vec3.eq_of_get
    intro axis
    rcases reduced axis with ⟨low, high⟩
    rw [get_minimumImage box (box.minimumImage offset), wrap_eq_self low high]

end Nonbonded.Box

/-! ## A cube -/

namespace Nonbonded.ParticleSystem

/-- The cube from -5 to 5 on every axis. -/
noncomputable def realCube : Box ℝ where
  lo := .ofAxes fun _ => -5
  hi := .ofAxes fun _ => 5
  lo_lt_hi axis := by
    rw [Vec3.get_ofAxes, Vec3.get_ofAxes]
    norm_num

theorem lengths_realCube (axis : Axis) : realCube.lengths.get axis = 10 := by
  rw [Box.lengths, Vec3.get_sub, realCube, Vec3.get_ofAxes, Vec3.get_ofAxes]
  norm_num

/-- A displacement of less than half the cube is not wrapped. -/
theorem minimumImage_onFirstAxis {x : ℝ} (short : |x| < 5) :
    realCube.minimumImage (.onFirstAxis x) = .onFirstAxis x := by
  rcases abs_lt.1 short with ⟨low, high⟩
  apply Vec3.eq_of_get
  intro axis
  rw [Box.get_minimumImage, lengths_realCube, Vec3.get_onFirstAxis, Box.wrap, Scalar.half_real,
    if_neg, if_neg]
  · split <;> linarith
  · split <;> linarith

end Nonbonded.ParticleSystem

namespace Nonbonded.Box

open ParticleSystem (realCube lengths_realCube)

/-- A displacement with its components at the three boundaries: half a length,
minus three half lengths, and almost three half lengths. -/
theorem minimumImage_nearest_and_reduced_boundary :
    let offset : Vec3 ℝ := ⟨5, -15, 14⟩
    (∀ axis, -(3 / 2 * realCube.lengths.get axis) ≤ offset.get axis ∧
        offset.get axis < 3 / 2 * realCube.lengths.get axis) ∧
      realCube.IsNearest offset (realCube.minimumImage offset) ∧
      (∀ axis, -(realCube.lengths.get axis / 2) ≤ (realCube.minimumImage offset).get axis ∧
        (realCube.minimumImage offset).get axis < realCube.lengths.get axis / 2) ∧
      realCube.minimumImage (realCube.minimumImage offset) = realCube.minimumImage offset := by
  intro offset
  have within : ∀ axis, -(3 / 2 * realCube.lengths.get axis) ≤ offset.get axis ∧
      offset.get axis < 3 / 2 * realCube.lengths.get axis := by
    intro axis
    rw [lengths_realCube]
    fin_cases axis <;> norm_num [offset, Vec3.get]
  rcases minimumImage_nearest_and_reduced realCube offset with ⟨-, nearest, reduced⟩
  refine ⟨within, nearest.2 fun axis => ?_, reduced within⟩
  exact abs_le.2 ⟨(within axis).1, (within axis).2.le⟩

end Nonbonded.Box
