import Mathlib.Analysis.InnerProductSpace.PiL2
import Nonbonded.Proofs.Exact.Scalar

/-!
# Lengths of vectors

The length of a vector in exact arithmetic is its Euclidean norm.  The library
itself computes with squared lengths only; lengths are ordered as their squares
are.
-/

namespace Nonbonded.Vec3

/-- The length of a vector. -/
noncomputable def length (v : Vec3 ℝ) : ℝ :=
  Real.sqrt v.normSq

theorem length_eq_norm (v : Vec3 ℝ) : v.length = ‖WithLp.toLp 2 v.get‖ := by
  rw [length, normSq_eq_sum, EuclideanSpace.norm_eq]
  simp only [Real.norm_eq_abs, sq_abs]

theorem normSq_nonneg (v : Vec3 ℝ) : 0 ≤ v.normSq := by
  rw [normSq_eq_sum]
  exact Finset.sum_nonneg fun axis _ => sq_nonneg (v.get axis)

theorem abs_get_le_length (v : Vec3 ℝ) (axis : Axis) : |v.get axis| ≤ v.length :=
  Real.abs_le_sqrt (v.sq_get_le_normSq axis)

theorem length_neg (v : Vec3 ℝ) : (-v).length = v.length := by
  rw [length, length, normSq_neg]

theorem length_sub_le (v w : Vec3 ℝ) : (v - w).length ≤ v.length + w.length := by
  have difference : WithLp.toLp 2 (v - w).get = WithLp.toLp 2 v.get - WithLp.toLp 2 w.get := by
    rw [← WithLp.toLp_sub]
    congr 1
    funext axis
    exact get_sub v w axis
  rw [length_eq_norm, length_eq_norm, length_eq_norm, difference]
  exact norm_sub_le _ _

theorem length_lt_iff {v : Vec3 ℝ} {radius : ℝ} (nonneg : 0 ≤ radius) :
    v.length < radius ↔ v.normSq < radius * radius := by
  rw [length, Real.sqrt_lt (normSq_nonneg v) nonneg, sq]

theorem length_le_length_iff {v w : Vec3 ℝ} : v.length ≤ w.length ↔ v.normSq ≤ w.normSq :=
  Real.sqrt_le_sqrt_iff (normSq_nonneg w)

end Nonbonded.Vec3
