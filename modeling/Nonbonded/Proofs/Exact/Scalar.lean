import Mathlib.Algebra.BigOperators.Group.Finset.Basic
import Mathlib.Analysis.SpecialFunctions.Pow.Real
import Nonbonded.Contribution
import Nonbonded.Proofs.Comparison

/-!
# Exact arithmetic

The reading of scalars as real numbers.  Every operation is the one of the
field, comparisons are decided classically, and every number is finite.
Vectors and contributions then form commutative monoids under their
componentwise sums, so sums of them may be rearranged.
-/

namespace Nonbonded

/-- Real numbers with exact arithmetic. -/
noncomputable instance Scalar.real : Scalar ℝ where
  ofNat n := n
  decidableLT := inferInstance
  decidableLE := inferInstance
  sqrt := Real.sqrt
  exp := Real.exp
  pow := Real.rpow
  isFinite _ := true

instance : Scalar.Consistent ℝ where
  not_le_of_lt less := not_le_of_gt less
  not_lt_of_beq equal := by
    rw [eq_of_beq equal]
    exact lt_irrefl _
  le_of_beq_of_le equal atMost := by
    rw [← eq_of_beq equal]
    exact atMost

/-- Numerals are the numbers they write. -/
theorem Scalar.numeral_real (n : ℕ) : @OfNat.ofNat ℝ n (Scalar.numeral n) = (n : ℝ) :=
  rfl

theorem Scalar.one_real : @OfNat.ofNat ℝ 1 (Scalar.numeral 1) = 1 :=
  Nat.cast_one

@[simp]
theorem Scalar.half_real : (Scalar.half : ℝ) = 1 / 2 := by
  change ((1 : ℕ) : ℝ) / ((2 : ℕ) : ℝ) = 1 / 2
  norm_num

theorem Scalar.sum_real (values : List ℝ) : Scalar.sum values = values.sum := by
  have start : (-Scalar.ofNat 0 : ℝ) = 0 := by
    change -((0 : ℕ) : ℝ) = 0
    rw [Nat.cast_zero, neg_zero]
  rw [List.sum_eq_foldl]
  exact congrArg (fun first => values.foldl (· + ·) first) start

namespace Vec3

section Components

variable {α : Type} [Scalar α]

@[simp]
theorem get_add (v w : Vec3 α) (axis : Axis) : (v + w).get axis = v.get axis + w.get axis := by
  fin_cases axis <;> rfl

@[simp]
theorem get_sub (v w : Vec3 α) (axis : Axis) : (v - w).get axis = v.get axis - w.get axis := by
  fin_cases axis <;> rfl

@[simp]
theorem get_neg (v : Vec3 α) (axis : Axis) : (-v).get axis = -v.get axis := by
  fin_cases axis <;> rfl

@[simp]
theorem get_scale (v : Vec3 α) (factor : α) (axis : Axis) :
    (v.scale factor).get axis = v.get axis * factor := by
  fin_cases axis <;> rfl

omit [Scalar α] in
/-- Vectors with the same components are the same. -/
theorem eq_of_get {v w : Vec3 α} (same : ∀ axis, v.get axis = w.get axis) : v = w :=
  Vec3.ext (same 0) (same 1) (same 2)

end Components

noncomputable instance : Zero (Vec3 ℝ) :=
  ⟨zero⟩

@[simp]
theorem get_zero_real (axis : Axis) : (0 : Vec3 ℝ).get axis = 0 := by
  fin_cases axis <;> exact Nat.cast_zero

noncomputable instance : AddCommMonoid (Vec3 ℝ) where
  add_assoc u v w := eq_of_get fun axis => by simp only [get_add, add_assoc]
  zero_add v := eq_of_get fun axis => by simp only [get_add, get_zero_real, zero_add]
  add_zero v := eq_of_get fun axis => by simp only [get_add, get_zero_real, add_zero]
  add_comm v w := eq_of_get fun axis => by simp only [get_add, add_comm]
  nsmul := nsmulRec

theorem neg_sub_eq (v w : Vec3 ℝ) : -(v - w) = w - v :=
  eq_of_get fun axis => by simp only [get_neg, get_sub, neg_sub]

theorem neg_neg_eq (v : Vec3 ℝ) : -(-v) = v :=
  eq_of_get fun axis => by simp only [get_neg, neg_neg]

/-- The squared length is the sum of the squared components. -/
theorem normSq_eq_sum (v : Vec3 ℝ) : v.normSq = ∑ axis, v.get axis ^ 2 := by
  change v.x * v.x + v.y * v.y + v.z * v.z = _
  rw [Fin.sum_univ_three]
  simp only [get_zero, get_one, get_two, sq]

theorem sq_get_le_normSq (v : Vec3 ℝ) (axis : Axis) : v.get axis ^ 2 ≤ v.normSq := by
  rw [normSq_eq_sum]
  exact Finset.single_le_sum (fun other _ => sq_nonneg (v.get other)) (Finset.mem_univ axis)

@[simp]
theorem normSq_neg (v : Vec3 ℝ) : (-v).normSq = v.normSq := by
  simp only [normSq_eq_sum, get_neg, neg_sq]

/-- A vector along the first axis. -/
noncomputable def onFirstAxis (x : ℝ) : Vec3 ℝ :=
  .ofAxes fun axis => if axis = 0 then x else 0

theorem get_onFirstAxis (x : ℝ) (axis : Axis) :
    (onFirstAxis x).get axis = if axis = 0 then x else 0 :=
  get_ofAxes _ _

theorem onFirstAxis_add (x y : ℝ) : onFirstAxis x + onFirstAxis y = onFirstAxis (x + y) := by
  apply eq_of_get
  intro axis
  rw [get_add, get_onFirstAxis, get_onFirstAxis, get_onFirstAxis]
  split
  · rfl
  · exact add_zero 0

theorem onFirstAxis_sub (x y : ℝ) : onFirstAxis x - onFirstAxis y = onFirstAxis (x - y) := by
  apply eq_of_get
  intro axis
  rw [get_sub, get_onFirstAxis, get_onFirstAxis, get_onFirstAxis]
  split
  · rfl
  · exact sub_zero 0

theorem normSq_onFirstAxis (x : ℝ) : (onFirstAxis x).normSq = x ^ 2 := by
  simp [normSq_eq_sum, get_onFirstAxis, ite_pow]

end Vec3

namespace Contribution

noncomputable instance : Zero (Contribution ℝ) :=
  ⟨zero⟩

@[simp]
theorem force_zero : (0 : Contribution ℝ).force = 0 :=
  rfl

@[simp]
theorem energy_zero : (0 : Contribution ℝ).energy = 0 :=
  Nat.cast_zero

@[simp]
theorem virial_zero : (0 : Contribution ℝ).virial = 0 :=
  Nat.cast_zero

noncomputable instance : AddCommMonoid (Contribution ℝ) where
  add_assoc a b c := Contribution.ext (add_assoc a.force b.force c.force)
    (add_assoc a.energy b.energy c.energy) (add_assoc a.virial b.virial c.virial)
  zero_add a := by
    apply Contribution.ext
    · rw [force_add, force_zero, zero_add]
    · rw [energy_add, energy_zero]
      exact zero_add a.energy
    · rw [virial_add, virial_zero]
      exact zero_add a.virial
  add_zero a := by
    apply Contribution.ext
    · rw [force_add, force_zero, add_zero]
    · rw [energy_add, energy_zero]
      exact add_zero a.energy
    · rw [virial_add, virial_zero]
      exact add_zero a.virial
  add_comm a b := Contribution.ext (add_comm a.force b.force) (add_comm a.energy b.energy)
    (add_comm a.virial b.virial)
  nsmul := nsmulRec

@[simp]
theorem reaction_zero : (0 : Contribution ℝ).reaction = 0 := by
  apply Contribution.ext
  · exact Vec3.eq_of_get fun axis => by simp [reaction]
  · rfl
  · rfl

/-- The component of the force along an axis. -/
noncomputable def forceAlong (axis : Axis) : Contribution ℝ →+ ℝ where
  toFun c := c.force.get axis
  map_zero' := Vec3.get_zero_real axis
  map_add' a b := Vec3.get_add a.force b.force axis

/-- The energy. -/
noncomputable def energyPart : Contribution ℝ →+ ℝ where
  toFun c := c.energy
  map_zero' := energy_zero
  map_add' _ _ := rfl

/-- The virial. -/
noncomputable def virialPart : Contribution ℝ →+ ℝ where
  toFun c := c.virial
  map_zero' := virial_zero
  map_add' _ _ := rfl

@[simp]
theorem get_force_sum {ι : Type} (s : Finset ι) (f : ι → Contribution ℝ)
    (axis : Axis) : (∑ p ∈ s, f p).force.get axis = ∑ p ∈ s, (f p).force.get axis :=
  map_sum (forceAlong axis) f s

@[simp]
theorem energy_sum {ι : Type} (s : Finset ι) (f : ι → Contribution ℝ) :
    (∑ p ∈ s, f p).energy = ∑ p ∈ s, (f p).energy :=
  map_sum energyPart f s

@[simp]
theorem virial_sum {ι : Type} (s : Finset ι) (f : ι → Contribution ℝ) :
    (∑ p ∈ s, f p).virial = ∑ p ∈ s, (f p).virial :=
  map_sum virialPart f s

end Contribution

end Nonbonded
