import Mathlib.Algebra.Order.ToIntervalMod
import Mathlib.Tactic.Linarith
import Nonbonded.Box
import Nonbonded.Proofs.Exact.Scalar

/-!
# Periodic images in exact arithmetic

The images of a displacement are its translates by whole box lengths.  Wrapping
picks one of them: for a displacement of at most three half lengths on every
axis, one within half a length of the origin, and no image is shorter.  Images
of less than a length on every axis all wrap to the same one.

No more than one image lies strictly within half a length on every axis, and it
is the wrapped one if there is any.  There wrapping also commutes with
reversing the displacement.  At exactly half a length both fail.
-/

namespace Nonbonded.Box

/-- The whole period that wrapping adds to an offset. -/
noncomputable def shift (period offset : ℝ) : ℤ :=
  if period / 2 ≤ offset then -1 else if offset < -(period / 2) then 1 else 0

theorem wrap_eq_add (period offset : ℝ) :
    wrap period offset = offset + shift period offset * period := by
  have half : (1 / 2 : ℝ) * period = period / 2 := by ring
  simp only [wrap, Scalar.half_real, half, shift]
  by_cases above : period / 2 ≤ offset
  · rw [if_pos above, if_pos above]
    push_cast
    ring
  · rw [if_neg above, if_neg above]
    by_cases below : offset < -(period / 2)
    · rw [if_pos below, if_pos below]
      push_cast
      ring
    · rw [if_neg below, if_neg below]
      push_cast
      ring

/-- What wrapping does at each of the three places of an offset. -/
theorem wrap_cases (period offset : ℝ) :
    (period / 2 ≤ offset ∧ wrap period offset = offset - period) ∨
    (offset < -(period / 2) ∧ wrap period offset = offset + period) ∨
    (-(period / 2) ≤ offset ∧ offset < period / 2 ∧ wrap period offset = offset) := by
  have half : (1 / 2 : ℝ) * period = period / 2 := by ring
  simp only [wrap, Scalar.half_real, half]
  by_cases above : period / 2 ≤ offset
  · exact .inl ⟨above, if_pos above⟩
  · by_cases below : offset < -(period / 2)
    · exact .inr (.inl ⟨below, by rw [if_neg above, if_pos below]⟩)
    · exact .inr (.inr ⟨not_lt.1 below, not_le.1 above, by rw [if_neg above, if_neg below]⟩)

/-- An offset of at most three half periods is wrapped into half a period. -/
theorem abs_wrap_le {period offset : ℝ} (near : |offset| ≤ 3 / 2 * period) :
    |wrap period offset| ≤ period / 2 := by
  rcases abs_le.1 near with ⟨low, high⟩
  rw [abs_le]
  rcases wrap_cases period offset with
    ⟨above, same⟩ | ⟨below, same⟩ | ⟨notBelow, notAbove, same⟩ <;>
      rw [same] <;> constructor <;> linarith

/-- From minus three half periods, included, to three half periods, wrapping
reduces an offset to the interval of one period around the origin that has its
lower end. -/
theorem wrap_eq_toIcoMod {period offset : ℝ} (positive : 0 < period)
    (low : -(3 / 2 * period) ≤ offset) (high : offset < 3 / 2 * period) :
    wrap period offset = toIcoMod positive (-(period / 2)) offset := by
  symm
  rw [toIcoMod_eq_iff]
  constructor
  · rw [Set.mem_Ico]
    rcases wrap_cases period offset with
      ⟨above, same⟩ | ⟨below, same⟩ | ⟨notBelow, notAbove, same⟩ <;>
        rw [same] <;> constructor <;> linarith
  · refine ⟨-shift period offset, ?_⟩
    rw [wrap_eq_add, zsmul_eq_mul]
    push_cast
    ring

/-- Wrapping does not tell translates of less than a period by whole periods
apart. -/
theorem wrap_add_mul {period offset : ℝ} {m : ℤ} (short : |offset| < period)
    (shortToo : |offset + m * period| < period) :
    wrap period (offset + m * period) = wrap period offset := by
  have positive : 0 < period := lt_of_le_of_lt (abs_nonneg offset) short
  rcases abs_lt.1 short with ⟨low, high⟩
  rcases abs_lt.1 shortToo with ⟨lowToo, highToo⟩
  rw [wrap_eq_toIcoMod positive (by linarith) (by linarith),
    wrap_eq_toIcoMod positive (by linarith) (by linarith), ← zsmul_eq_mul, toIcoMod_add_zsmul]

/-- Strictly within half a period, wrapping commutes with reversing the
offset. -/
theorem wrap_neg {period offset : ℝ} (inside : |wrap period offset| < period / 2) :
    wrap period (-offset) = -wrap period offset := by
  rcases abs_lt.1 inside with ⟨low, high⟩
  -- The opposite offset is at the opposite place; at minus half a period it
  -- would not be.
  rcases wrap_cases period offset with
    ⟨above, same⟩ | ⟨below, same⟩ | ⟨notBelow, notAbove, same⟩ <;>
      rw [same] at low high ⊢ <;>
      rcases wrap_cases period (-offset) with
        ⟨aboveToo, opposite⟩ | ⟨belowToo, opposite⟩ | ⟨notBelowToo, notAboveToo, opposite⟩ <;>
          rw [opposite] <;> linarith

/-- Wrapping takes opposite offsets to opposite ones or, at half a period, to
the same one. -/
theorem wrap_neg_cases {period : ℝ} (positive : 0 < period) (offset : ℝ) :
    wrap period (-offset) = -wrap period offset ∨ wrap period (-offset) = wrap period offset := by
  rcases wrap_cases period offset with
    ⟨above, same⟩ | ⟨below, same⟩ | ⟨notBelow, notAbove, same⟩ <;>
      rcases wrap_cases period (-offset) with
        ⟨aboveToo, opposite⟩ | ⟨belowToo, opposite⟩ | ⟨notBelowToo, notAboveToo, opposite⟩ <;>
          rw [same, opposite] <;>
          first
          | exact .inl (by linarith)
          | exact .inr (by linarith)

/-- Of two translates by whole periods, one within half a period and one
strictly within, both are the same. -/
theorem eq_of_abs_add_mul {period offset : ℝ} {m n : ℤ}
    (inside : |offset + m * period| < period / 2) (within : |offset + n * period| ≤ period / 2) :
    m = n := by
  have positive : 0 < period := by linarith [abs_nonneg (offset + m * period)]
  have apart : |((m - n : ℤ) : ℝ) * period| < 1 * period :=
    calc
      |((m - n : ℤ) : ℝ) * period| = |(offset + m * period) - (offset + n * period)| := by
        congr 1
        push_cast
        ring
      _ ≤ |offset + m * period| + |offset + n * period| := abs_sub _ _
      _ < 1 * period := by linarith
  rw [abs_mul, abs_of_pos positive] at apart
  have close : |((m - n : ℤ) : ℝ)| < 1 := lt_of_mul_lt_mul_right apart positive.le
  have equal : |m - n| < 1 := by exact_mod_cast close
  exact sub_eq_zero.1 (Int.abs_lt_one_iff.1 equal)

/-- No translate of an offset by whole periods is shorter than the wrapped
one. -/
theorem abs_wrap_le_abs_add_mul {period offset : ℝ} (near : |offset| ≤ 3 / 2 * period) (m : ℤ) :
    |wrap period offset| ≤ |offset + m * period| := by
  have within := abs_wrap_le near
  by_contra shorter
  have inside : |offset + m * period| < period / 2 := lt_of_lt_of_le (not_le.1 shorter) within
  rw [wrap_eq_add] at within
  have same : m = shift period offset := eq_of_abs_add_mul inside within
  rw [wrap_eq_add, same] at shorter
  exact shorter le_rfl

theorem lengths_pos (box : Box ℝ) (axis : Axis) : 0 < box.lengths.get axis := by
  rw [lengths, Vec3.get_sub]
  exact sub_pos.2 (box.lo_lt_hi axis)

/-- The image of a displacement in a cell of the lattice that the box
generates. -/
noncomputable def image (box : Box ℝ) (offset : Vec3 ℝ) (cell : Axis → ℤ) : Vec3 ℝ :=
  .ofAxes fun axis => offset.get axis + cell axis * box.lengths.get axis

@[simp]
theorem get_image (box : Box ℝ) (offset : Vec3 ℝ) (cell : Axis → ℤ) (axis : Axis) :
    (box.image offset cell).get axis = offset.get axis + cell axis * box.lengths.get axis :=
  Vec3.get_ofAxes _ _

/-- The cell of the image that wrapping picks. -/
noncomputable def wrappedCell (box : Box ℝ) (offset : Vec3 ℝ) : Axis → ℤ :=
  fun axis => shift (box.lengths.get axis) (offset.get axis)

theorem minimumImage_eq_image (box : Box ℝ) (offset : Vec3 ℝ) :
    box.minimumImage offset = box.image offset (box.wrappedCell offset) :=
  Vec3.eq_of_get fun axis => by rw [get_minimumImage, get_image, wrap_eq_add, wrappedCell]

theorem image_neg (box : Box ℝ) (offset : Vec3 ℝ) (cell : Axis → ℤ) :
    box.image (-offset) (fun axis => -cell axis) = -box.image offset cell := by
  apply Vec3.eq_of_get
  intro axis
  rw [get_image, Vec3.get_neg, Vec3.get_neg, get_image]
  push_cast
  ring

/-- Images that are shorter than the box on every axis wrap alike. -/
theorem minimumImage_image {box : Box ℝ} {offset : Vec3 ℝ} {cell : Axis → ℤ}
    (short : ∀ axis, |offset.get axis| < box.lengths.get axis)
    (shortToo : ∀ axis, |(box.image offset cell).get axis| < box.lengths.get axis) :
    box.minimumImage (box.image offset cell) = box.minimumImage offset := by
  apply Vec3.eq_of_get
  intro axis
  have bound := shortToo axis
  rw [get_image] at bound
  rw [get_minimumImage, get_minimumImage, get_image, wrap_add_mul (short axis) bound]

/-- No image is shorter than the wrapped one. -/
theorem normSq_minimumImage_le {box : Box ℝ} {offset : Vec3 ℝ}
    (near : ∀ axis, |offset.get axis| ≤ 3 / 2 * box.lengths.get axis) (cell : Axis → ℤ) :
    (box.minimumImage offset).normSq ≤ (box.image offset cell).normSq := by
  rw [Vec3.normSq_eq_sum, Vec3.normSq_eq_sum]
  apply Finset.sum_le_sum
  intro axis _
  rw [get_minimumImage, get_image]
  exact sq_le_sq.2 (abs_wrap_le_abs_add_mul (near axis) (cell axis))

/-- Half of the edge length along an axis. -/
noncomputable def halfLength (box : Box ℝ) (axis : Axis) : ℝ :=
  box.lengths.get axis / 2

theorem halfLength_pos (box : Box ℝ) (axis : Axis) : 0 < box.halfLength axis :=
  half_pos (box.lengths_pos axis)

/-- A vector strictly within half a box length of the origin on every axis. -/
def Inside (box : Box ℝ) (v : Vec3 ℝ) : Prop :=
  ∀ axis, |v.get axis| < box.halfLength axis

/-- A vector is inside when its length is below half of every box length. -/
theorem inside_of_normSq_lt {box : Box ℝ} {v : Vec3 ℝ}
    (short : ∀ axis, v.normSq < box.halfLength axis ^ 2) : box.Inside v := by
  intro axis
  have component : v.get axis ^ 2 < box.halfLength axis ^ 2 :=
    lt_of_le_of_lt (v.sq_get_le_normSq axis) (short axis)
  exact abs_lt_of_sq_lt_sq component (box.halfLength_pos axis).le

theorem minimumImage_neg {box : Box ℝ} {offset : Vec3 ℝ}
    (inside : box.Inside (box.minimumImage offset)) :
    box.minimumImage (-offset) = -box.minimumImage offset := by
  apply Vec3.eq_of_get
  intro axis
  have within := inside axis
  rw [get_minimumImage] at within
  rw [get_minimumImage, Vec3.get_neg, Vec3.get_neg, get_minimumImage, wrap_neg within]

/-- The wrapped images of opposite displacements are equally long, also at half
a box length. -/
theorem normSq_minimumImage_neg (box : Box ℝ) (offset : Vec3 ℝ) :
    (box.minimumImage (-offset)).normSq = (box.minimumImage offset).normSq := by
  rw [Vec3.normSq_eq_sum, Vec3.normSq_eq_sum]
  apply Finset.sum_congr rfl
  intro axis _
  rw [get_minimumImage, get_minimumImage, Vec3.get_neg]
  rcases wrap_neg_cases (box.lengths_pos axis) (offset.get axis) with opposite | same
  · rw [opposite, neg_sq]
  · rw [same]

/-- The only image inside the box is the wrapped one. -/
theorem eq_wrappedCell {box : Box ℝ} {offset : Vec3 ℝ} {cell : Axis → ℤ}
    (near : ∀ axis, |offset.get axis| ≤ 3 / 2 * box.lengths.get axis)
    (inside : box.Inside (box.image offset cell)) : cell = box.wrappedCell offset := by
  funext axis
  have within := inside axis
  rw [get_image] at within
  apply eq_of_abs_add_mul within
  rw [wrappedCell, ← wrap_eq_add]
  exact abs_wrap_le (near axis)

end Nonbonded.Box
