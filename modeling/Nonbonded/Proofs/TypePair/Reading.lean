import Nonbonded.Proofs.Faults
import Nonbonded.TypePair.Table

/-!
# Reading tables in inner loops

`Table.get` evaluates a slot in 64 bits and reads the packed storage there.  A
table exists only when its pairs can be counted in 64 bits, and then no step of
the evaluation leaves the range: for types below the type count the reading
succeeds, with the entry in the exact slot.
-/

namespace Nonbonded.TypePair

theorem pairCount?_one : pairCount? 1 = some 1 :=
  rfl

/-- Where the pairs of `n` types can be counted, so can `n * (n + 1)`. -/
theorem mul_succ_lt_limit_of_pairCount? {n size : Nat} (counted : pairCount? n = some size) :
    n * (n + 1) < Word64.limit := by
  simp only [pairCount?, Option.bind_eq_bind, Option.bind_eq_some_iff, Word64.add?_eq_some_iff,
    Word64.mul?_eq_some_iff] at counted
  rcases counted with ⟨_, ⟨_, rfl⟩, _, ⟨fits, _⟩, _⟩
  exact fits

/-- Where the pairs of `n` types can be counted, every slot evaluates to its
exact number. -/
theorem slot?_eq_some_slot {a b n size : Nat} (counted : pairCount? n = some size) (ha : a < n)
    (hb : b < n) : slot? a b n = some (slot a b n) := by
  have fits := mul_succ_lt_limit_of_pairCount? counted
  have rowLt : min a b < n := by omega
  have highLt : max a b < n := by omega
  have rowLe : min a b * n ≤ (n - 1) * n := Nat.mul_le_mul_right n (by omega)
  have wholeSquare : (n - 1) * n + n = n * n := by
    rw [← Nat.succ_mul, Nat.succ_eq_add_one, Nat.sub_add_cancel (by omega)]
  have square : n * (n + 1) = n * n + n := Nat.mul_succ n n
  have triangle : min a b * (min a b + 1) ≤ min a b * n := Nat.mul_le_mul_left _ rowLt
  have start : Word64.mul? (min a b) n = some (min a b * n) :=
    Word64.mul?_eq_some_iff.2 ⟨by omega, rfl⟩
  have offset : Word64.add? (max a b) (min a b * n) = some (max a b + min a b * n) :=
    Word64.add?_eq_some_iff.2 ⟨by omega, rfl⟩
  have next : Word64.add? (min a b) 1 = some (min a b + 1) :=
    Word64.add?_eq_some_iff.2 ⟨by omega, rfl⟩
  have product : Word64.mul? (min a b) (min a b + 1) = some (min a b * (min a b + 1)) :=
    Word64.mul?_eq_some_iff.2 ⟨by omega, rfl⟩
  have difference : Word64.sub? (max a b + min a b * n) (min a b * (min a b + 1) / 2) =
      some (slot a b n) :=
    Word64.sub?_eq_some_iff.2 ⟨by omega, rfl⟩
  simp [slot?, start, offset, next, product, difference]

namespace Table

variable {β : Type}

/-- Reading a pair of types in range gives the entry of their slot. -/
theorem get_of_lt (table : Table β) {type1 type2 : Nat} (lt1 : type1 < table.typeCount)
    (lt2 : type2 < table.typeCount) :
    ∃ place : Fin table.values.size, table.place? type1 type2 = some place ∧
      table.get type1 type2 = .ok table.values[place] := by
  have inRange : slot type1 type2 table.typeCount < table.values.size := by
    rw [table.size_values]
    exact slot_lt_pairCount lt1 lt2
  refine ⟨⟨_, inRange⟩, dif_pos ⟨lt1, lt2⟩, ?_⟩
  rw [get, if_pos ⟨lt1, lt2⟩, slot?_eq_some_slot table.fits lt1 lt2]
  exact entryAt_of_lt inRange

/-- The order of the two types does not matter for reading. -/
theorem get_comm (table : Table β) (type1 type2 : Nat) :
    table.get type1 type2 = table.get type2 type1 := by
  simp only [get, and_comm, slot?_comm type1 type2, Nat.max_comm type1 type2]

/-- What is read is one of the stored values. -/
theorem mem_values_of_get {table : Table β} {type1 type2 : Nat} {value : β}
    (read : table.get type1 type2 = .ok value) : value ∈ table.values := by
  unfold get at read
  split at read
  · split at read
    · exact Array.mem_of_getElem? (entryAt_eq_ok_iff.1 read)
    · cases read
  · cases read

end Table

end Nonbonded.TypePair
