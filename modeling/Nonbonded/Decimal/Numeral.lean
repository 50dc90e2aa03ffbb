import Nonbonded.Decimal.Ratio

/-!
# Decimal numerals and their nearest binary64 number

A `Numeral` is a signed decimal number `digits · 10 ^ exponent`.
`Numeral.toFloat?` rounds it to the nearest binary64 number, a tie to the even
one, and gives nothing when the rounded magnitude exceeds every finite number.
-/

namespace Nonbonded.Decimal

/-- The number `digits · 10 ^ exponent`, negated when so marked. -/
structure Numeral where
  negative : Bool
  digits : Nat
  exponent : Int
  deriving DecidableEq

/-- The exponent of the least positive binary64 number. -/
def leastExponent : Int :=
  -1074

/-- The encoding of the finite binary64 number nearest to a ratio. -/
def nearestBits? (r : Ratio) : Option Nat :=
  if r.num = 0 then some 0
  else
    let unit := max (r.log 2 - 52) leastExponent
    let bits := (unit - leastExponent).toNat <<< 52 + (r.unscale 2 unit).nearest
    if bits < 0x7ff <<< 52 then some bits else none

namespace Numeral

/-- The encoding of the magnitude.  Numerals far outside the range of binary64
are told from their number of digits, so that no huge power is ever formed. -/
def magnitudeBits? (n : Numeral) : Option Nat :=
  let lead := n.exponent + (Nat.toDigits 10 n.digits).length
  if n.digits = 0 ∨ lead < -330 then some 0
  else if 310 < lead then none
  else nearestBits? (.scaled n.digits 10 n.exponent)

/-- The nearest binary64 number, when it is finite. -/
def toFloat? (n : Numeral) : Option Float :=
  n.magnitudeBits?.map fun bits =>
    .ofBits (.ofNat (if n.negative then (1 <<< 63) + bits else bits))

end Numeral

end Nonbonded.Decimal
