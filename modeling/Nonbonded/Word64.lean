/-!
# Natural numbers that fit in 64 bits

Addition, multiplication and subtraction with a result only when the exact
value is a number of 64 bits.  A chain of these operations gives a value
exactly when no step of it leaves the range.
-/

namespace Nonbonded.Word64

/-- The least number that does not fit. -/
def limit : Nat :=
  1 <<< 64

/-- A value that fits. -/
def fit? (value : Nat) : Option Nat :=
  if value < limit then some value else none

/-- The sum, when it fits. -/
def add? (a b : Nat) : Option Nat :=
  fit? (a + b)

/-- The product, when it fits. -/
def mul? (a b : Nat) : Option Nat :=
  fit? (a * b)

/-- The difference, when it is not negative. -/
def sub? (a b : Nat) : Option Nat :=
  if b ≤ a then some (a - b) else none

theorem fit?_eq_some_iff {value result : Nat} :
    fit? value = some result ↔ value < limit ∧ value = result := by
  by_cases fits : value < limit <;> simp [fit?, fits]

theorem add?_eq_some_iff {a b result : Nat} :
    add? a b = some result ↔ a + b < limit ∧ a + b = result :=
  fit?_eq_some_iff

theorem mul?_eq_some_iff {a b result : Nat} :
    mul? a b = some result ↔ a * b < limit ∧ a * b = result :=
  fit?_eq_some_iff

theorem sub?_eq_some_iff {a b result : Nat} :
    sub? a b = some result ↔ b ≤ a ∧ a - b = result := by
  by_cases ordered : b ≤ a <;> simp [sub?, ordered]

end Nonbonded.Word64
