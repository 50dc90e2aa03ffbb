import Nonbonded.Word64

/-!
# Slots of unordered type pairs

The unordered pairs of `n` types, a type with itself included, are numbered row
by row through the upper triangle of an `n` by `n` square.  `slot` and
`pairCount` are the exact numbers; `slot?` and `pairCount?` evaluate the same
formulas in 64 bits and give nothing once an intermediate value leaves the
range.
-/

namespace Nonbonded.TypePair

/-- The number of unordered pairs of `n` types. -/
def pairCount (n : Nat) : Nat :=
  n * (n + 1) / 2

/-- The slot of the unordered pair of `a` and `b` among `n` types. -/
def slot (a b n : Nat) : Nat :=
  max a b + min a b * n - min a b * (min a b + 1) / 2

/-- The number of unordered pairs, evaluated in 64 bits. -/
def pairCount? (n : Nat) : Option Nat := do
  let next ← Word64.add? n 1
  let product ← Word64.mul? n next
  some (product / 2)

/-- The slot of an unordered pair, evaluated in 64 bits for types of any
size. -/
def slot? (a b n : Nat) : Option Nat := do
  let row := min a b
  let start ← Word64.mul? row n
  let offset ← Word64.add? (max a b) start
  let next ← Word64.add? row 1
  let product ← Word64.mul? row next
  Word64.sub? offset (product / 2)

theorem slot_comm (a b n : Nat) : slot a b n = slot b a n := by
  simp [slot, Nat.max_comm, Nat.min_comm]

theorem slot?_comm (a b n : Nat) : slot? a b n = slot? b a n := by
  simp [slot?, Nat.max_comm, Nat.min_comm]

/-- A triangular number is half of a product of neighbours. -/
private theorem two_mul_triangle (n : Nat) : 2 * (n * (n + 1) / 2) = n * (n + 1) := by
  have even : n * (n + 1) % 2 = 0 := by
    rcases Nat.mod_two_eq_zero_or_one n with h | h
    · rw [Nat.mul_mod, h, Nat.zero_mul]
    · rw [Nat.mul_mod, Nat.add_mod, h]
  omega

/-- Every pair of types below `n` has its slot below the number of pairs. -/
theorem slot_lt_pairCount {a b n : Nat} (ha : a < n) (hb : b < n) :
    slot a b n < pairCount n := by
  have key : ∀ low high : Nat, low ≤ high → high < n →
      high + low * n - low * (low + 1) / 2 < n * (n + 1) / 2 := by
    intro low high lowLe highLt
    have count := two_mul_triangle n
    have before := two_mul_triangle low
    obtain ⟨rest, rfl⟩ : ∃ rest, n = low + 1 + rest := ⟨n - (low + 1), by omega⟩
    have square : (low + 1 + rest) * (low + 1 + rest + 1) + low * (low + 1) =
        2 * (low * (low + 1 + rest)) + 2 * (low + 1 + rest) + rest * (rest + 1) := by
      grind
    have below : low * (low + 1) ≤ low * (low + 1 + rest) := Nat.mul_le_mul_left _ (by omega)
    omega
  unfold slot pairCount
  exact key _ _ (by omega) (by omega)

end Nonbonded.TypePair
