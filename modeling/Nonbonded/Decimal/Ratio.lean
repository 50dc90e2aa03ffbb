/-!
# Nonnegative ratios

Exact comparison, scaling and rounding of quotients of natural numbers, as the
conversions between binary and decimal notation need them.  A denominator is
positive in every use; no normal form is kept.
-/

namespace Nonbonded.Decimal

/-- The quotient of two natural numbers. -/
structure Ratio where
  num : Nat
  den : Nat

namespace Ratio

/-- The number `factor · base ^ exponent`. -/
def scaled (factor base : Nat) (exponent : Int) : Ratio :=
  if 0 ≤ exponent then ⟨factor * base.pow exponent.toNat, 1⟩
  else ⟨factor, base.pow (-exponent).toNat⟩

/-- The quotient of a ratio by `base ^ exponent`. -/
def unscale (r : Ratio) (base : Nat) (exponent : Int) : Ratio :=
  if 0 ≤ exponent then ⟨r.num, r.den * base.pow exponent.toNat⟩
  else ⟨r.num * base.pow (-exponent).toNat, r.den⟩

/-- Whether one ratio is at most another. -/
def le (r s : Ratio) : Bool :=
  r.num * s.den ≤ s.num * r.den

/-- Whether one ratio is below another. -/
def lt (r s : Ratio) : Bool :=
  r.num * s.den < s.num * r.den

/-- The greatest natural number at most a ratio. -/
def floor (r : Ratio) : Nat :=
  r.num / r.den

/-- The natural number nearest to a ratio; a half goes to the even
neighbour. -/
def nearest (r : Ratio) : Nat :=
  let rest := r.num % r.den
  if 2 * rest < r.den ∨ (2 * rest = r.den ∧ r.floor % 2 = 0) then r.floor else r.floor + 1

/-- The greatest exponent whose power of the base is at most a positive ratio.
The digit counts of the two parts leave two candidates. -/
def log (r : Ratio) (base : Nat) : Int :=
  let guess : Int := (Nat.toDigits base r.num).length - (Nat.toDigits base r.den).length
  if (scaled 1 base guess).le r then guess else guess - 1

end Ratio

end Nonbonded.Decimal
