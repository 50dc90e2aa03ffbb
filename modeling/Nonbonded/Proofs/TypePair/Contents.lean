import Nonbonded.Proofs.TypePair.Numbering

/-!
# Tables as maps

Whatever is written to a table, it stays a map from the unordered pairs of its
types: every pair holds what was last written to it under either order of its
types, and a write to one pair leaves all others alone.  A write with a type
out of range is refused and changes nothing.

One write is understood through the slots, which differ for different pairs.  A
run of writes then follows by induction, and what it leaves for a pair is read
off the writes to that pair alone.
-/

namespace Nonbonded.TypePair

variable {β : Type}

/-- A request that changes a table. -/
inductive Write (β : Type) where
  | set (type1 type2 : Nat) (value : β)
  | update (type1 type2 : Nat) (change : β → β)

namespace Write

/-- The type that is given first. -/
def type1 : Write β → Nat
  | set type1 _ _ | update type1 _ _ => type1

/-- The type that is given second. -/
def type2 : Write β → Nat
  | set _ type2 _ | update _ type2 _ => type2

/-- The pair of types, in either order. -/
def pair (write : Write β) : Sym2 Nat :=
  s(write.type1, write.type2)

/-- The new value of the pair, as a function of the old one. -/
def change : Write β → β → β
  | set _ _ value => fun _ => value
  | update _ _ change => change

end Write

/-- What a pair holds after a sequence of writes; only the writes to this pair
matter. -/
def valueAfter (writes : List (Write β)) (held : β) (pair : Sym2 Nat) : β :=
  (writes.filter (·.pair = pair)).foldl (fun value write => write.change value) held

theorem valueAfter_cons (write : Write β) (writes : List (Write β)) (contents : Sym2 Nat → β)
    (pair : Sym2 Nat) :
    valueAfter (write :: writes) (contents pair) pair =
      valueAfter writes
        (Function.update contents write.pair (write.change (contents write.pair)) pair) pair := by
  by_cases own : write.pair = pair
  · subst own
    simp [valueAfter]
  · simp [valueAfter, own, Function.update_of_ne (Ne.symm own)]

namespace Table

variable {table : Table β} {n : Nat} {contents : Sym2 Nat → β}

/-- Carry a request out, answering the new value of the pair. -/
def write (table : Table β) : Write β → Reply TableError β (Table β)
  | .set type1 type2 value => (table.set type1 type2 value).map fun _ => value
  | .update type1 type2 change => table.update type1 type2 change

/-- The table that a sequence of requests leaves. -/
def run (table : Table β) (writes : List (Write β)) : Table β :=
  writes.foldl (fun table write => (table.write write).state) table

/-- Storing a value is changing the pair to it. -/
theorem write_eq_update (table : Table β) (write : Write β) :
    table.write write = table.update write.type1 write.type2 write.change := by
  cases write with
  | set type1 type2 value =>
      simp only [Table.write, set, update, Write.type1, Write.type2, Write.change]
      split <;> rfl
  | update => rfl

/-- A table for `n` types that is a map from their unordered pairs: both ways
of reading give what the pair holds, a write answers the new value, and a type
out of range is refused with nothing changed. -/
structure Holds (table : Table β) (n : Nat) (contents : Sym2 Nat → β) : Prop where
  typeCount : table.typeCount = n
  size : table.values.size = n * (n + 1) / 2
  tryGet : ∀ a b, a < n → b < n → table.tryGet a b = .ok (contents s(a, b))
  get : ∀ a b, a < n → b < n → table.get a b = .ok (contents s(a, b))
  tryGetOutside : ∀ a b, n ≤ a ∨ n ≤ b → table.tryGet a b = .error (.invalidType a b n)
  answer : ∀ write : Write β, write.type1 < n → write.type2 < n →
    (table.write write).answer = .ok (write.change (contents write.pair))
  refusal : ∀ write : Write β, n ≤ write.type1 ∨ n ≤ write.type2 →
    table.write write = .refuse (.invalidType write.type1 write.type2 n) table

/-- It is enough that every slot stores what its pair should hold. -/
theorem holds_of_stored
    (stored : ∀ a b, a < table.typeCount → b < table.typeCount →
      table.values[slot a b table.typeCount]? = some (contents s(a, b))) :
    table.Holds table.typeCount contents := by
  constructor
  case typeCount => rfl
  case size => exact table.size_values
  case tryGet =>
    intro a b ha hb
    exact (tryGet_eq_ok_iff ha hb).2 (stored a b ha hb)
  case get =>
    intro a b ha hb
    rcases table.get_of_lt ha hb with ⟨place, placed, read⟩
    have same : table.tryGet a b = .ok table.values[place] := by rw [Table.tryGet, placed]
    rw [(tryGet_eq_ok_iff ha hb).2 (stored a b ha hb)] at same
    rw [read, ← Except.ok.inj same]
  case tryGetOutside =>
    intro a b outside
    rw [Table.tryGet, (table.place?_eq_none_iff a b).2 outside]
    rfl
  case answer =>
    intro write lt1 lt2
    rcases exists_place? lt1 lt2 with ⟨place, placed, isSlot⟩
    have held := stored _ _ lt1 lt2
    rw [← isSlot, Array.getElem?_eq_getElem place.isLt] at held
    rw [write_eq_update, update, placed]
    exact congrArg (fun value => Except.ok (write.change value)) (Option.some.inj held)
  case refusal =>
    intro write outside
    rw [write_eq_update, update, (table.place?_eq_none_iff _ _).2 outside]
    rfl

theorem Holds.stored (holds : table.Holds n contents) {a b : Nat} (ha : a < n) (hb : b < n) :
    table.values[slot a b n]? = some (contents s(a, b)) := by
  rcases holds.typeCount with rfl
  exact (tryGet_eq_ok_iff ha hb).1 (holds.tryGet a b ha hb)

theorem holds_create (small : n < 2 ^ 32) (value : β) :
    ∃ start, create n value = .ok start ∧ start.Holds n fun _ => value := by
  have counted : pairCount? n = some (pairCount n) := pairCount?_eq_some_iff.2 ⟨small, rfl⟩
  refine ⟨⟨n, .replicate (pairCount n) value, by simpa using counted⟩, ?_, ?_⟩
  · unfold create
    split
    · next size counted' =>
        rw [counted] at counted'
        cases counted'
        rfl
    · next uncounted =>
        rw [counted] at uncounted
        cases uncounted
  · apply holds_of_stored
    intro a b ha hb
    simp [slot_lt_pairCount ha hb]

/-- One write changes the map at its own pair. -/
theorem Holds.write (holds : table.Holds n contents) (write : Write β) :
    (table.write write).state.Holds n
      (Function.update contents write.pair (write.change (contents write.pair))) := by
  have typeCount : (table.write write).state.typeCount = n := by
    rw [write_eq_update, typeCount_update, holds.typeCount]
  rw [← typeCount]
  apply holds_of_stored
  rw [typeCount]
  intro a b ha hb
  by_cases inside : write.type1 < n ∧ write.type2 < n
  · rcases inside with ⟨lt1, lt2⟩
    have inTable1 : write.type1 < table.typeCount := holds.typeCount ▸ lt1
    have inTable2 : write.type2 < table.typeCount := holds.typeCount ▸ lt2
    rw [write_eq_update, getElem?_update inTable1 inTable2, holds.typeCount, holds.stored ha hb]
    by_cases own : write.pair = s(a, b)
    · rw [if_pos ((slot_eq_slot_iff lt1 lt2 ha hb).2 own), ← own, Function.update_self]
      rfl
    · rw [if_neg fun same => own ((slot_eq_slot_iff lt1 lt2 ha hb).1 same),
        Function.update_of_ne (Ne.symm own)]
  · -- A refused write names a type that no pair of types in range has.
    have outside : n ≤ write.type1 ∨ n ≤ write.type2 := by omega
    have other : s(a, b) ≠ write.pair := by
      intro same
      rcases Sym2.eq_iff.1 same with ⟨rfl, rfl⟩ | ⟨rfl, rfl⟩
      · exact inside ⟨ha, hb⟩
      · exact inside ⟨hb, ha⟩
    rw [holds.refusal write outside, Reply.state_refuse, holds.stored ha hb,
      Function.update_of_ne other]

theorem Holds.run (holds : table.Holds n contents) (writes : List (Write β)) :
    (table.run writes).Holds n fun pair => valueAfter writes (contents pair) pair := by
  induction writes generalizing table contents with
  | nil => exact holds
  | cons write writes inductionHypothesis =>
      simp only [valueAfter_cons]
      exact inductionHypothesis (holds.write write)

/-- After any sequence of requests every pair holds what was last written to
it. -/
theorem holds_run_create (small : n < 2 ^ 32) (value : β) :
    ∃ start, create n value = .ok start ∧
      ∀ writes, (start.run writes).Holds n (valueAfter writes value) := by
  rcases holds_create small value with ⟨start, created, holds⟩
  exact ⟨start, created, holds.run⟩

/-- A pair written in one order and changed in the other, between requests to
another pair and to a type out of range. -/
theorem holds_run_create_three :
    3 < 2 ^ 32 ∧ ∃ start, create 3 (0 : Int) = .ok start ∧
      let table := start.run
        [.set 2 0 5, .set 1 1 9, .update 0 2 (· + 1), .set 3 0 7]
      table.values.size = 6 ∧ table.tryGet 2 0 = .ok 6 ∧ table.tryGet 0 2 = .ok 6 ∧
        table.get 1 1 = .ok 9 ∧ table.tryGet 0 0 = .ok 0 ∧
        table.tryGet 3 0 = .error (.invalidType 3 0 3) := by
  have small : 3 < 2 ^ 32 := by decide
  rcases holds_run_create small (0 : Int) with ⟨start, created, holds⟩
  have map := holds [.set 2 0 5, .set 1 1 9, .update 0 2 (· + 1), .set 3 0 7]
  refine ⟨small, start, created, map.size, ?_, ?_, ?_, ?_, ?_⟩
  · exact map.tryGet 2 0 (by decide) (by decide)
  · exact map.tryGet 0 2 (by decide) (by decide)
  · exact map.get 1 1 (by decide) (by decide)
  · exact map.tryGet 0 0 (by decide) (by decide)
  · exact map.tryGetOutside 3 0 (.inl (by decide))

end Table

end Nonbonded.TypePair
