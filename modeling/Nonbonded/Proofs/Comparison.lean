import Nonbonded.Scalar

/-!
# Comparisons that do not contradict each other

What comparisons have in common in exact arithmetic and in that of the machine.
A value that is less than another is not at least as large; values that compare
equal are not less than each other, and what one of them is at most, so is the
other.  Nothing says that two values compare at all, or that values which
compare equal are the same.
-/

namespace Nonbonded.Scalar

/-- Comparisons that do not contradict each other. -/
class Consistent (α : Type) [Scalar α] : Prop where
  not_le_of_lt : ∀ {left right : α}, left < right → ¬right ≤ left
  not_lt_of_beq : ∀ {left right : α}, left == right → ¬right < left
  le_of_beq_of_le : ∀ {left right value : α}, left == right → left ≤ value → right ≤ value

/-! ## Machine numbers

Two machine numbers compare as lesser, equal or greater, unless one of them is not a number. -/

open Float.Model

theorem float_lt_iff {left right : Float} :
    left < right ↔ left.toModel.unpack.compare right.toModel.unpack = some .lt := by
  change decide (left.toModel.unpack.lt right.toModel.unpack = true) = true ↔ _
  rw [decide_eq_true_iff]
  exact beq_iff_eq

theorem float_beq_iff {left right : Float} :
    left == right ↔ left.toModel.unpack.compare right.toModel.unpack = some .eq := by
  change left.toModel.unpack.beq right.toModel.unpack = true ↔ _
  exact beq_iff_eq

theorem float_le_iff {left right : Float} :
    left ≤ right ↔ (left.toModel.unpack.compare right.toModel.unpack).any Ordering.isLE := by
  change decide (left.toModel.unpack.le right.toModel.unpack = true) = true ↔ _
  rw [decide_eq_true_iff]
  rfl

theorem compare_swap (left right : UnpackedFloat) :
    right.compare left = (left.compare right).map Ordering.swap := by
  have lexicographic : ∀ (e e' : Int) (m m' : Nat),
      (compare e' e).then (compare m' m) = ((compare e e').then (compare m m')).swap := by
    intro e e' m m'
    rw [Ordering.swap_then, Int.compare_swap, Nat.compare_swap]
  rcases left with (_ | _) | _ | _ | ⟨(_ | _), m, e, _⟩ <;>
    rcases right with (_ | _) | _ | _ | ⟨(_ | _), m', e', _⟩ <;>
    first
    | rfl
    | exact congrArg some (lexicographic e e' m m')
    | exact congrArg (some ∘ Ordering.swap) (lexicographic e e' m m')

/-- Numbers that compare equal are the same, except for the sign of zero. -/
theorem eq_or_zero_of_compare {left right : UnpackedFloat}
    (equal : left.compare right = some .eq) :
    left = right ∨ ∃ sign sign', left = .zero sign ∧ right = .zero sign' := by
  have lexicographic : ∀ (e e' : Int) (m m' : Nat),
      (compare e e').then (compare m m') = .eq → e = e' ∧ m = m' := by
    intro e e' m m' both
    rcases Ordering.then_eq_eq.1 both with ⟨exponents, mantissas⟩
    exact ⟨Int.compare_eq_eq.1 exponents, Nat.compare_eq_eq.1 mantissas⟩
  rcases left with (_ | _) | _ | sign | ⟨(_ | _), m, e, _⟩ <;>
    rcases right with (_ | _) | _ | sign' | ⟨(_ | _), m', e', _⟩ <;>
    try first
    | exact .inl rfl
    | exact .inr ⟨sign, sign', rfl, rfl⟩
    | cases equal
  -- What is left are two finite numbers of the same sign.
  · rcases lexicographic e e' m m' (Ordering.swap_eq_eq.1 (Option.some.inj equal)) with ⟨rfl, rfl⟩
    exact .inl rfl
  · rcases lexicographic e e' m m' (Option.some.inj equal) with ⟨rfl, rfl⟩
    exact .inl rfl

/-- Numbers that compare equal compare alike with every other number. -/
theorem compare_congr {left right : UnpackedFloat} (equal : left.compare right = some .eq)
    (value : UnpackedFloat) : left.compare value = right.compare value := by
  rcases eq_or_zero_of_compare equal with rfl | ⟨sign, sign', rfl, rfl⟩
  · rfl
  · rcases value with (_ | _) | _ | _ | ⟨(_ | _), _, _, _⟩ <;> rfl

instance : Consistent Float where
  not_le_of_lt less atLeast := by
    rw [float_lt_iff] at less
    rw [float_le_iff, compare_swap, less] at atLeast
    cases atLeast
  not_lt_of_beq equal less := by
    rw [float_beq_iff] at equal
    rw [float_lt_iff, compare_swap, equal] at less
    cases less
  le_of_beq_of_le equal atMost := by
    rw [float_beq_iff] at equal
    rw [float_le_iff, compare_congr equal] at atMost
    exact float_le_iff.2 atMost

end Nonbonded.Scalar
