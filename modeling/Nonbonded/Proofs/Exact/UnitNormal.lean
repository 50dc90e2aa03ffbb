import Nonbonded.Proofs.Exact.Length
import Nonbonded.Proofs.UniformField.Edits

/-!
# Unit normals

In exact arithmetic a direction is normalized to a vector of length one.
Directions that differ by a positive factor are normalized to the same vector,
and opposite ones to opposite vectors, as long as they are long enough to be
normalized.

So the normal of a uniform field has length one, from its creation on and
whatever edits are tried.
-/

namespace Nonbonded

namespace Vec3

theorem get_divide (v : Vec3 ℝ) (divisor : ℝ) (axis : Axis) :
    (v.divide divisor).get axis = v.get axis / divisor := by
  fin_cases axis <;> rfl

theorem normSq_scale (v : Vec3 ℝ) (factor : ℝ) :
    (v.scale factor).normSq = factor ^ 2 * v.normSq := by
  simp only [normSq_eq_sum, get_scale, Finset.mul_sum, mul_pow, mul_comm]

theorem normSq_divide (v : Vec3 ℝ) (divisor : ℝ) :
    (v.divide divisor).normSq = v.normSq / divisor ^ 2 := by
  simp only [normSq_eq_sum, get_divide, Finset.sum_div, div_pow]

theorem length_scale (v : Vec3 ℝ) {factor : ℝ} (nonneg : 0 ≤ factor) :
    (v.scale factor).length = factor * v.length := by
  rw [length, length, normSq_scale, Real.sqrt_mul (sq_nonneg factor), Real.sqrt_sq nonneg]

end Vec3

namespace UniformField

variable {direction unit : Vec3 ℝ}

theorem normalize_real_iff :
    normalize direction = .ok unit ↔
      tolerance * tolerance < direction.normSq ∧ direction.divide direction.length = unit :=
  normalize_eq_ok_iff

theorem length_pos_of_normalize (normalized : normalize direction = .ok unit) :
    0 < direction.length := by
  have long := (normalize_real_iff.1 normalized).1
  exact Real.sqrt_pos.2 (lt_of_le_of_lt (mul_self_nonneg tolerance) long)

/-- What normalizing gives has length one. -/
theorem length_of_normalize (normalized : normalize direction = .ok unit) : unit.length = 1 := by
  have positive := length_pos_of_normalize normalized
  rcases normalize_real_iff.1 normalized with ⟨-, rfl⟩
  have square : direction.length ^ 2 = direction.normSq :=
    Real.sq_sqrt (Vec3.normSq_nonneg direction)
  rw [Vec3.length, Vec3.normSq_divide, square, div_self, Real.sqrt_one]
  rw [← square]
  exact (pow_pos positive 2).ne'

/-- A positive factor makes no difference to a direction. -/
theorem normalize_scale {factor : ℝ} {other : Vec3 ℝ} (positive : 0 < factor)
    (normalized : normalize direction = .ok unit)
    (normalizedToo : normalize (direction.scale factor) = .ok other) : other = unit := by
  rcases normalize_real_iff.1 normalized with ⟨-, rfl⟩
  rcases normalize_real_iff.1 normalizedToo with ⟨-, rfl⟩
  apply Vec3.eq_of_get
  intro axis
  rw [Vec3.get_divide, Vec3.get_divide, Vec3.get_scale, Vec3.length_scale direction positive.le,
    mul_comm (direction.get axis), mul_div_mul_left _ _ positive.ne']

/-- The opposite direction is normalized to the opposite vector. -/
theorem normalize_neg (normalized : normalize direction = .ok unit) :
    normalize (-direction) = .ok (-unit) := by
  rcases normalize_real_iff.1 normalized with ⟨long, rfl⟩
  rw [normalize_real_iff, Vec3.normSq_neg, Vec3.length_neg, and_iff_right long]
  apply Vec3.eq_of_get
  intro axis
  rw [Vec3.get_neg, Vec3.get_divide, Vec3.get_divide, Vec3.get_neg, neg_div]

theorem tolerance_real : (tolerance : ℝ) = 1 / 4503599627370496 := by
  change ((1 : ℕ) : ℝ) / ((4503599627370496 : ℕ) : ℝ) = _
  norm_num

/-- A vector of length one is its own direction. -/
theorem normalize_of_length_eq_one (isUnit : unit.length = 1) :
    normalize unit = .ok unit := by
  have square : unit.normSq = 1 := by
    rw [← Real.sq_sqrt unit.normSq_nonneg]
    exact (congrArg (· ^ 2) isUnit).trans (one_pow 2)
  rw [normalize_real_iff, square, isUnit, tolerance_real]
  constructor
  · norm_num
  · apply Vec3.eq_of_get
    intro axis
    rw [Vec3.get_divide, div_one]

/-! ## Any sequence of edits -/

variable {field start : UniformField ℝ} {n : Nat}

theorem exists_normalize_of_setNormal {after : UniformField ℝ}
    (turned : field.setNormal direction = .done () after) :
    ∃ unit, normalize direction = .ok unit ∧ after = { field with normal := unit } := by
  rcases edit_cases field (.normal direction) with ⟨other, made, edited⟩ | ⟨error, refused, -⟩
  · cases turned.symm.trans made
    cases edited with
    | normal normalized => exact ⟨_, normalized, rfl⟩
  · cases congrArg Reply.answer (turned.symm.trans refused)

/-- A field for `n` types whose normal has length one.  An edit is made or
changes nothing, a normal is stored by its direction alone, and totals look up
no strength that is not there. -/
structure HasUnitNormal (field : UniformField ℝ) (n : Nat) : Prop where
  length_normal : field.normal.length = 1
  typeCount : field.toExternalField.typeCount = n
  decided : ∀ edit, (∃ after, field.edit edit = .done () after ∧ Edited field edit after) ∨
    ∃ error, field.edit edit = .refuse error field ∧ Unfit field edit error
  setNormal_scale : ∀ direction factor after other, 0 < factor →
    field.setNormal direction = .done () after →
    field.setNormal (direction.scale factor) = .done () other → other = after
  setNormal_neg : ∀ direction after, field.setNormal direction = .done () after →
    field.setNormal (-direction) = .done () { after with normal := -after.normal }
  total : ∀ system reduce trial, ∃ answer,
    field.toExternalField.totalEnergy system reduce trial = .ok answer

theorem Kept.hasUnitNormal (kept : field.Kept n) : field.HasUnitNormal n where
  length_normal := by
    rcases kept.normalized with ⟨direction, normalized⟩
    exact length_of_normalize normalized
  typeCount := kept.size_strengths
  decided := edit_cases field
  setNormal_scale direction factor after other positive turned turnedToo := by
    rcases exists_normalize_of_setNormal turned with ⟨unit, normalized, rfl⟩
    rcases exists_normalize_of_setNormal turnedToo with ⟨unitToo, normalizedToo, rfl⟩
    rw [normalize_scale positive normalized normalizedToo]
  setNormal_neg direction after turned := by
    rcases exists_normalize_of_setNormal turned with ⟨unit, normalized, rfl⟩
    exact setNormal_of_normalize (normalize_neg normalized) field
  total := exists_totalEnergy field

/-- A field is created with the normal that setting the same direction would
store.  From then on, whatever edits are tried, it has a normal of length one
and as many types as it was created for; a refused edit changes nothing;
directions that differ by a positive factor are stored as one vector and
opposite ones as opposite vectors; and no total looks up a strength past the
end. -/
theorem hasUnitNormal_editAll {origin : Vec3 ℝ} (created : create n origin direction = .ok start) :
    start.setNormal direction = .done () start ∧
      ∀ edits, (start.editAll edits).HasUnitNormal n := by
  rcases create_eq_ok_iff.1 created with ⟨normalized, -, -⟩
  refine ⟨setNormal_of_normalize normalized start, fun edits => ?_⟩
  exact ((kept_of_create created).editAll edits).hasUnitNormal

/-- A direction along the first axis is normalized to the unit vector of its
sign. -/
theorem normalize_onFirstAxis {x sign : ℝ} (long : 1 ≤ |x|) (signed : x / |x| = sign) :
    normalize (.onFirstAxis x) = .ok (.onFirstAxis sign) := by
  have square : 1 ≤ x ^ 2 := by
    rw [← sq_abs]
    exact one_le_pow₀ long
  rw [normalize_real_iff, Vec3.length, Vec3.normSq_onFirstAxis, Real.sqrt_sq_eq_abs,
    tolerance_real]
  constructor
  · linarith
  · apply Vec3.eq_of_get
    intro axis
    rw [Vec3.get_divide, Vec3.get_onFirstAxis, Vec3.get_onFirstAxis]
    split
    · exact signed
    · exact zero_div _

/-- Edits that are made and edits that are refused: a type out of range, and a
direction of length zero. -/
noncomputable def turningEdits (value x : ℝ) : List (Edit ℝ) :=
  [.strength 0 value, .strength 2 1, .normal (.onFirstAxis 0), .origin (.onFirstAxis 1),
    .normal (.onFirstAxis x)]

theorem hasUnitNormal_editAll_turned :
    ∃ start : UniformField ℝ, create 2 (.onFirstAxis 0) (.onFirstAxis 2) = .ok start ∧
      start.normal = .onFirstAxis 1 ∧
      (start.editAll (turningEdits (3 / 2) (-3))).normal = .onFirstAxis (-1) ∧
      (start.editAll (turningEdits (3 / 2) (-3))).HasUnitNormal 2 := by
  have forward : normalize (.onFirstAxis 2) = .ok (.onFirstAxis 1) :=
    normalize_onFirstAxis (by norm_num) (by norm_num)
  have back : normalize (.onFirstAxis (-3)) = .ok (.onFirstAxis (-1)) :=
    normalize_onFirstAxis (by norm_num) (by norm_num)
  rcases exists_create_of_normalize forward 2 (.onFirstAxis 0) with ⟨start, created, normal, -⟩
  have edited := (hasUnitNormal_editAll created).2 (turningEdits (3 / 2) (-3))
  refine ⟨start, created, normal, ?_, edited⟩
  -- The last edit alone decides the normal.
  change ((start.editAll ((turningEdits (3 / 2) (-3)).take 4)).edit
    (.normal (.onFirstAxis (-3)))).state.normal = _
  rw [edit, setNormal_of_normalize back, Reply.state_done]

end UniformField

end Nonbonded
