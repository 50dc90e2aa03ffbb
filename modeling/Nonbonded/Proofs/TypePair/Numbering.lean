import Mathlib.Algebra.Ring.Parity
import Nonbonded.Proofs.TypePair.Reading
import Nonbonded.Proofs.TypePair.Slots

/-!
# The numbering of unordered pairs in 64 bits

The pairs of a number of types can be counted in 64 bits exactly when there are
fewer than `2 ^ 32` types.  Then no step of any evaluation leaves the range,
and slots number the pairs from zero up to their count without a gap and
without a repetition.

The rows fill the numbers one after the other, and the last of them ends at the
count.
-/

namespace Nonbonded.TypePair

/-! ## Counting -/

theorem mul_succ_lt_limit_iff {n : Nat} : n * (n + 1) < Word64.limit ↔ n < 2 ^ 32 := by
  have limit : Word64.limit = 2 ^ 32 * 2 ^ 32 := by decide
  rw [limit]
  constructor
  · intro fits
    by_contra large
    have square : 2 ^ 32 * 2 ^ 32 ≤ n * (n + 1) :=
      Nat.mul_le_mul (Nat.not_lt.1 large) (Nat.le_succ_of_le (Nat.not_lt.1 large))
    exact absurd fits (Nat.not_lt.2 square)
  · intro small
    calc
      n * (n + 1) ≤ (2 ^ 32 - 1) * 2 ^ 32 := Nat.mul_le_mul (Nat.le_sub_one_of_lt small) small
      _ < 2 ^ 32 * 2 ^ 32 := by decide

/-- The pairs that can be counted, and their number. -/
theorem pairCount?_eq_some_iff {n size : Nat} :
    pairCount? n = some size ↔ n < 2 ^ 32 ∧ pairCount n = size := by
  constructor
  · intro counted
    exact ⟨mul_succ_lt_limit_iff.1 (mul_succ_lt_limit_of_pairCount? counted),
      pairCount_eq_of_pairCount? counted⟩
  · rintro ⟨small, rfl⟩
    have next : Word64.add? n 1 = some (n + 1) := by
      refine Word64.add?_eq_some_iff.2 ⟨?_, rfl⟩
      exact (Nat.succ_le_of_lt small).trans_lt (by decide)
    have product : Word64.mul? n (n + 1) = some (n * (n + 1)) :=
      Word64.mul?_eq_some_iff.2 ⟨mul_succ_lt_limit_iff.2 small, rfl⟩
    simp [pairCount?, next, product, pairCount]

theorem pairCount?_eq_none_iff {n : Nat} : pairCount? n = none ↔ 2 ^ 32 ≤ n := by
  rw [Option.eq_none_iff_forall_ne_some]
  constructor
  · intro uncounted
    by_contra small
    exact uncounted _ (pairCount?_eq_some_iff.2 ⟨Nat.not_le.1 small, rfl⟩)
  · intro large size counted
    exact absurd large (Nat.not_le.2 (pairCount?_eq_some_iff.1 counted).1)

/-! ## Rows without a gap -/

theorem rowStart_zero (n : Nat) : rowStart 0 n = 0 := by
  simp [rowStart]

/-- The last row ends at the number of pairs. -/
theorem rowStart_self (n : Nat) : rowStart n n = pairCount n := by
  have even : pairCount n * 2 = n * (n + 1) :=
    Nat.div_mul_cancel (even_iff_two_dvd.1 (Nat.even_mul_succ_self n))
  have whole : n + n * n = n * (n + 1) := by rw [Nat.mul_succ, Nat.add_comm]
  rw [rowStart, whole, ← even, Nat.mul_div_cancel _ Nat.two_pos, Nat.mul_two, Nat.add_sub_cancel]

/-- Every number before the start of a row is a slot of an earlier row. -/
theorem exists_slot_of_lt_rowStart {row n k : Nat} (within : row ≤ n)
    (before : k < rowStart row n) : ∃ low high, low < n ∧ high < n ∧ slot low high n = k := by
  induction row with
  | zero =>
      rw [rowStart_zero] at before
      cases before
  | succ row inductionHypothesis =>
      have inside : row < n := within
      by_cases earlier : k < rowStart row n
      · exact inductionHypothesis inside.le earlier
      · -- The number is in this row, as far from its start as the larger type is from the row.
        rw [rowStart_succ inside] at before
        have place : rowStart row n + (k - rowStart row n) = k :=
          Nat.add_sub_of_le (Nat.not_lt.1 earlier)
        refine ⟨row, row + (k - rowStart row n), inside, by omega, ?_⟩
        rw [slot_eq_rowStart_add (Nat.le_add_right _ _) inside, Nat.add_sub_cancel_left, place]

/-! ## The numbering -/

/-- Evaluated in 64 bits, slots number the unordered pairs of `n` types from
zero up to `size`. -/
structure IsNumbering (n size : Nat) : Prop where
  counted : pairCount? n = some size
  evaluated : ∀ a b, a < n → b < n → ∃ k < size, slot? a b n = some k ∧ slot? b a n = some k
  injective : ∀ a b c d, a < n → b < n → c < n → d < n → slot? a b n = slot? c d n →
    s(a, b) = s(c, d)
  surjective : ∀ k < size, ∃ a b, a < n ∧ b < n ∧ slot? a b n = some k

theorem isNumbering_of_lt {n : Nat} (small : n < 2 ^ 32) : IsNumbering n (pairCount n) := by
  have counted : pairCount? n = some (pairCount n) := pairCount?_eq_some_iff.2 ⟨small, rfl⟩
  constructor
  case counted => exact counted
  case evaluated =>
    intro a b ha hb
    refine ⟨slot a b n, slot_lt_pairCount ha hb, slot?_eq_some_slot counted ha hb, ?_⟩
    rw [slot_comm]
    exact slot?_eq_some_slot counted hb ha
  case injective =>
    intro a b c d ha hb hc hd same
    rw [slot?_eq_some_slot counted ha hb, slot?_eq_some_slot counted hc hd] at same
    exact (slot_eq_slot_iff ha hb hc hd).1 (Option.some.inj same)
  case surjective =>
    intro k below
    rw [← rowStart_self] at below
    rcases exists_slot_of_lt_rowStart (Nat.le_refl n) below with ⟨low, high, lowLt, highLt, rfl⟩
    exact ⟨low, high, lowLt, highLt, slot?_eq_some_slot counted lowLt highLt⟩

theorem Table.typeCount_lt {β : Type} (table : Table β) : table.typeCount < 2 ^ 32 :=
  (pairCount?_eq_some_iff.1 table.fits).1

/-- The stored values are those of the pairs of types. -/
theorem Table.mem_values_iff {β : Type} {table : Table β} {value : β} :
    value ∈ table.values ↔ ∃ type1 type2, table.tryGet type1 type2 = .ok value := by
  constructor
  · intro stored
    rcases Array.mem_iff_getElem?.1 stored with ⟨k, atPlace⟩
    have below : k < rowStart table.typeCount table.typeCount := by
      rw [rowStart_self, ← table.size_values]
      exact (Array.getElem?_eq_some_iff.1 atPlace).1
    rcases exists_slot_of_lt_rowStart (Nat.le_refl _) below with ⟨low, high, lowLt, highLt, rfl⟩
    exact ⟨low, high, (tryGet_eq_ok_iff lowLt highLt).2 atPlace⟩
  · rintro ⟨type1, type2, read⟩
    unfold tryGet at read
    split at read
    · next place _ =>
        cases read
        exact Array.getElem_mem place.isLt
    · cases read

/-- Below `2 ^ 32` types, counting pairs and evaluating slots stay within 64
bits, and slots number the pairs.  From there on counting leaves the range, and
there is no table. -/
theorem isNumbering_or_uncounted (n : Nat) :
    (n < 2 ^ 32 → IsNumbering n (n * (n + 1) / 2)) ∧
    (2 ^ 32 ≤ n → pairCount? n = none ∧ ∀ β : Type,
      (∀ value : β, Table.create n value = .error .overflow) ∧
        ∀ table : Table β, table.typeCount ≠ n) := by
  constructor
  · exact isNumbering_of_lt
  · intro large
    have uncounted : pairCount? n = none := pairCount?_eq_none_iff.2 large
    refine ⟨uncounted, fun β => ⟨fun value => ?_, fun table => ?_⟩⟩
    · unfold Table.create
      split
      · next size counted =>
          rw [uncounted] at counted
          cases counted
      · rfl
    · exact (table.typeCount_lt.trans_le large).ne

/-- The largest number of types that a table can have, and the next one. -/
theorem isNumbering_or_uncounted_limit :
    4294967295 < 2 ^ 32 ∧ IsNumbering 4294967295 9223372034707292160 ∧
      2 ^ 32 ≤ 4294967296 ∧ pairCount? 4294967296 = none ∧
      ∀ table : Table Nat, table.typeCount ≠ 4294967296 := by
  have small : 4294967295 < 2 ^ 32 := by decide
  have large : 2 ^ 32 ≤ 4294967296 := by decide
  have largest : 4294967295 * (4294967295 + 1) / 2 = 9223372034707292160 := by decide
  have numbered := (isNumbering_or_uncounted 4294967295).1 small
  rw [largest] at numbered
  rcases (isNumbering_or_uncounted 4294967296).2 large with ⟨uncounted, absent⟩
  exact ⟨small, numbered, large, uncounted, (absent Nat).2⟩

end Nonbonded.TypePair
