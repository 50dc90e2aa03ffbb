import Mathlib.Data.Nat.Choose.Basic
import Mathlib.Data.Sym.Sym2
import Nonbonded.TypePair.Table

/-!
# Slots row by row

The row of a type holds the pairs in which no type is smaller.  Rows follow
each other without a gap: each ends where the next one begins.  A slot
therefore lies in one row only, and different unordered pairs have different
slots.

What a change of one pair does to the packed storage is read off the slot.
-/

namespace Nonbonded.TypePair

/-- The slot of the first pair of a row, the type with itself. -/
def rowStart (row n : Nat) : Nat :=
  row + row * n - row * (row + 1) / 2

theorem rowStart_succ {row n : Nat} (inside : row < n) :
    rowStart (row + 1) n = rowStart row n + (n - row) := by
  have triangle : (row + 1) * (row + 1 + 1) / 2 = row * (row + 1) / 2 + (row + 1) := by
    have next := Nat.triangle_succ (row + 1)
    simp only [Nat.add_sub_cancel] at next
    rw [Nat.mul_comm (row + 1) (row + 1 + 1), next, Nat.mul_comm row (row + 1)]
  have below : row * (row + 1) ≤ row * n := Nat.mul_le_mul_left row inside
  have longer : (row + 1) * n = row * n + n := Nat.succ_mul row n
  rw [rowStart, rowStart, triangle, longer]
  omega

/-- A row that comes later begins no earlier than the next one. -/
theorem rowStart_le_of_le {first second n : Nat} (later : first ≤ second) (inside : second < n) :
    rowStart first n ≤ rowStart second n := by
  induction second, later using Nat.le_induction with
  | base => exact Nat.le_refl _
  | succ row _ inductionHypothesis =>
      have inRow : row < n := Nat.lt_of_succ_lt inside
      exact (inductionHypothesis inRow).trans (rowStart_succ inRow ▸ Nat.le_add_right _ _)

theorem slot_eq_rowStart_add {low high n : Nat} (ordered : low ≤ high) (inside : low < n) :
    slot low high n = rowStart low n + (high - low) := by
  have below : low * (low + 1) ≤ low * n := Nat.mul_le_mul_left low inside
  rw [slot, Nat.max_eq_right ordered, Nat.min_eq_left ordered, rowStart]
  omega

/-- All slots of a row come before those of later rows. -/
theorem slot_lt_slot_of_row_lt {low high low' high' n : Nat} (ordered : low ≤ high)
    (ordered' : low' ≤ high') (inside : high < n) (inside' : high' < n) (earlier : low < low') :
    slot low high n < slot low' high' n := by
  have lowLt : low < n := Nat.lt_of_le_of_lt ordered inside
  have lowLt' : low' < n := Nat.lt_of_le_of_lt ordered' inside'
  rw [slot_eq_rowStart_add ordered lowLt, slot_eq_rowStart_add ordered' lowLt']
  calc
    rowStart low n + (high - low) < rowStart low n + (n - low) := by omega
    _ = rowStart (low + 1) n := (rowStart_succ lowLt).symm
    _ ≤ rowStart low' n := rowStart_le_of_le earlier lowLt'
    _ ≤ rowStart low' n + (high' - low') := Nat.le_add_right _ _

/-- A slot determines the smaller and the larger type of its pair. -/
theorem eq_and_eq_of_slot_eq {low high low' high' n : Nat} (ordered : low ≤ high)
    (ordered' : low' ≤ high') (inside : high < n) (inside' : high' < n)
    (same : slot low high n = slot low' high' n) : low = low' ∧ high = high' := by
  rcases Nat.lt_trichotomy low low' with earlier | rfl | later
  · exact absurd same (slot_lt_slot_of_row_lt ordered ordered' inside inside' earlier).ne
  · have lowLt : low < n := Nat.lt_of_le_of_lt ordered inside
    rw [slot_eq_rowStart_add ordered lowLt, slot_eq_rowStart_add ordered' lowLt] at same
    omega
  · exact absurd same (slot_lt_slot_of_row_lt ordered' ordered inside' inside later).ne'

/-- Pairs of types have the same slot exactly when they are the same without
regard to order. -/
theorem slot_eq_slot_iff {a b c d n : Nat} (ha : a < n) (hb : b < n) (hc : c < n) (hd : d < n) :
    slot a b n = slot c d n ↔ s(a, b) = s(c, d) := by
  constructor
  · intro same
    have sorted : ∀ first second,
        slot first second n = slot (min first second) (max first second) n := by
      intro first second
      rcases Nat.le_total first second with below | above
      · rw [Nat.min_eq_left below, Nat.max_eq_right below]
      · rw [Nat.min_eq_right above, Nat.max_eq_left above, slot_comm]
    rw [sorted a b, sorted c d] at same
    have bounds : max a b < n ∧ max c d < n := ⟨Nat.max_lt.2 ⟨ha, hb⟩, Nat.max_lt.2 ⟨hc, hd⟩⟩
    obtain ⟨low, high⟩ := eq_and_eq_of_slot_eq min_le_max min_le_max bounds.1 bounds.2 same
    rw [Sym2.eq_iff]
    omega
  · intro same
    rcases Sym2.eq_iff.1 same with ⟨rfl, rfl⟩ | ⟨rfl, rfl⟩
    · rfl
    · exact slot_comm _ _ n

namespace Table

variable {β : Type} {table : Table β} {type1 type2 : Nat}

/-- Tables for as many types with the same storage are the same. -/
theorem eq_of_getElem? {left right : Table β} (typeCount : left.typeCount = right.typeCount)
    (stored : ∀ place : Nat, left.values[place]? = right.values[place]?) : left = right := by
  rcases left with ⟨_, leftValues, _⟩
  rcases right with ⟨_, rightValues, _⟩
  cases typeCount
  have values : leftValues = rightValues := Array.ext_getElem? stored
  cases values
  rfl

theorem exists_place? (lt1 : type1 < table.typeCount) (lt2 : type2 < table.typeCount) :
    ∃ place, table.place? type1 type2 = some place ∧
      (place : Nat) = slot type1 type2 table.typeCount :=
  ⟨_, dif_pos ⟨lt1, lt2⟩, rfl⟩

theorem tryGet_eq_ok_iff (lt1 : type1 < table.typeCount) (lt2 : type2 < table.typeCount)
    {value : β} :
    table.tryGet type1 type2 = .ok value ↔
      table.values[slot type1 type2 table.typeCount]? = some value := by
  obtain ⟨place, placed, isSlot⟩ := exists_place? lt1 lt2
  rw [tryGet, placed, ← isSlot]
  simp

theorem exists_answer_update (lt1 : type1 < table.typeCount) (lt2 : type2 < table.typeCount)
    (change : β → β) : ∃ value, (table.update type1 type2 change).answer = .ok value := by
  obtain ⟨place, placed, -⟩ := exists_place? lt1 lt2
  rw [update, placed]
  exact ⟨_, rfl⟩

/-- Changing a pair changes the value in its slot and no other. -/
theorem getElem?_update (lt1 : type1 < table.typeCount) (lt2 : type2 < table.typeCount)
    (change : β → β) (k : Nat) :
    (table.update type1 type2 change).state.values[k]? =
      if slot type1 type2 table.typeCount = k then table.values[k]?.map change
      else table.values[k]? := by
  obtain ⟨place, placed, isSlot⟩ := exists_place? lt1 lt2
  rw [update, placed, ← isSlot]
  simp only [Reply.state_done, Array.getElem?_set]
  by_cases own : (place : Nat) = k
  · subst own
    simp
  · simp only [own, if_false]

/-- Changes of different pairs can be made in either order, and so can changes
of one pair that commute. -/
theorem state_update_comm {a b c d : Nat} {first second : β → β} (ha : a < table.typeCount)
    (hb : b < table.typeCount) (hc : c < table.typeCount) (hd : d < table.typeCount)
    (independent : s(a, b) ≠ s(c, d) ∨ ∀ value, second (first value) = first (second value)) :
    ((table.update a b first).state.update c d second).state =
      ((table.update c d second).state.update a b first).state := by
  apply eq_of_getElem? (by simp)
  intro k
  rw [getElem?_update (by simpa using hc) (by simpa using hd), getElem?_update ha hb,
    getElem?_update (by simpa using ha) (by simpa using hb), getElem?_update hc hd,
    typeCount_update, typeCount_update]
  by_cases ofFirst : slot a b table.typeCount = k
  · by_cases ofSecond : slot c d table.typeCount = k
    · have same : s(a, b) = s(c, d) :=
        (slot_eq_slot_iff ha hb hc hd).1 (ofFirst.trans ofSecond.symm)
      have commute : second ∘ first = first ∘ second :=
        funext (independent.resolve_left (not_not.2 same))
      simp only [ofFirst, ofSecond, if_true, Option.map_map, commute]
    · simp only [ofFirst, ofSecond, if_true, if_false]
  · simp only [ofFirst, if_false]

end Table

end Nonbonded.TypePair
