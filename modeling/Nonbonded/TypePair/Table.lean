import Nonbonded.Reply
import Nonbonded.TypePair.Slot

/-!
# Tables over unordered type pairs

A `Table` holds one value for every unordered pair of particle types in packed
storage.  Its size is fixed when it is created, and a table exists only for a
number of types whose pairs can be counted in 64 bits.

Writing and reading by `set`, `update` and `tryGet` answer an error for a type
that is out of range.  `get` is the reading of inner loops, whose callers have
checked the types: it evaluates the slot in 64 bits and faults on a type out of
range.
-/

namespace Nonbonded.TypePair

/-- Why a table refuses a pair of types. -/
inductive TableError where
  | invalidType (type1 type2 typeCount : Nat)
  deriving DecidableEq

/-- One value for every unordered pair of types. -/
structure Table (β : Type) where
  typeCount : Nat
  values : Array β
  fits : pairCount? typeCount = some values.size

theorem pairCount_eq_of_pairCount? {n size : Nat} (counted : pairCount? n = some size) :
    pairCount n = size := by
  simp only [pairCount?, Option.bind_eq_bind, Option.bind_eq_some_iff, Word64.add?_eq_some_iff,
    Word64.mul?_eq_some_iff] at counted
  obtain ⟨_, ⟨_, rfl⟩, _, ⟨_, rfl⟩, halved⟩ := counted
  simpa [pairCount] using halved

namespace Table

variable {β : Type}

/-- The table with one value everywhere; faults when the pairs cannot be
counted. -/
def create (typeCount : Nat) (value : β) : Except Fault (Table β) :=
  match counted : pairCount? typeCount with
  | some size => .ok ⟨typeCount, .replicate size value, by simpa using counted⟩
  | none => .error .overflow

theorem size_values (table : Table β) : table.values.size = pairCount table.typeCount :=
  (pairCount_eq_of_pairCount? table.fits).symm

/-- The place of a pair in the packed storage, when both types are in range. -/
def place? (table : Table β) (type1 type2 : Nat) : Option (Fin table.values.size) :=
  if inRange : type1 < table.typeCount ∧ type2 < table.typeCount then
    some ⟨slot type1 type2 table.typeCount, by
      rw [table.size_values]
      exact slot_lt_pairCount inRange.1 inRange.2⟩
  else none

theorem place?_eq_none_iff (table : Table β) (type1 type2 : Nat) :
    table.place? type1 type2 = none ↔ table.typeCount ≤ type1 ∨ table.typeCount ≤ type2 := by
  rw [place?, dite_eq_right_iff]
  simp only [reduceCtorEq, imp_false]
  omega

/-- The error for a pair of types out of range. -/
def invalid (table : Table β) (type1 type2 : Nat) : TableError :=
  .invalidType type1 type2 table.typeCount

/-- The value of a pair. -/
def tryGet (table : Table β) (type1 type2 : Nat) : Except TableError β :=
  match table.place? type1 type2 with
  | some place => .ok table.values[place]
  | none => .error (table.invalid type1 type2)

/-- Replace the value of a pair by a function of it, answering the new
value. -/
def update (table : Table β) (type1 type2 : Nat) (change : β → β) : Reply TableError β (Table β) :=
  match table.place? type1 type2 with
  | some place =>
      let value := change table.values[place]
      .done value
        { table with
          values := table.values.set place value
          fits := by rw [Array.size_set, table.fits] }
  | none => .refuse (table.invalid type1 type2) table

@[simp]
theorem typeCount_update (table : Table β) (type1 type2 : Nat) (change : β → β) :
    (table.update type1 type2 change).state.typeCount = table.typeCount := by
  unfold update
  split <;> rfl

/-- Store a value for a pair. -/
def set (table : Table β) (type1 type2 : Nat) (value : β) : Reply TableError Unit (Table β) :=
  (table.update type1 type2 fun _ => value).andThen fun _ => .done ()

/-- The value of a pair whose types the caller knows to be in range. -/
def get (table : Table β) (type1 type2 : Nat) : Except Fault β :=
  if type1 < table.typeCount ∧ type2 < table.typeCount then
    match slot? type1 type2 table.typeCount with
    | some place => entryAt table.values place
    | none => .error .overflow
  else .error (.outOfRange (max type1 type2) table.typeCount)

end Table

end Nonbonded.TypePair
