import Nonbonded.Decimal.Ratio

/-!
# The shortest decimal text of a binary64 number

A finite number is written with the fewest digits that read back to it, and
with the nearest such digits; of two equally near the larger magnitude.  The
text is positional at every magnitude: no exponent is ever written, and a whole
number has no point.
-/

namespace Nonbonded.Decimal

/-- The reals that round to one positive number, with that number. -/
structure RoundingInterval where
  low : Ratio
  value : Ratio
  high : Ratio
  /-- Whether the ends round to the number too. -/
  closed : Bool

namespace RoundingInterval

/-- The interval of the number `significand · 2 ^ exponent`.  Below a power of
two the gap to the next number is only half as wide. -/
def ofBinary (significand : Nat) (exponent : Int) (narrow : Bool) : RoundingInterval where
  low := .scaled (4 * significand - if narrow then 1 else 2) 2 (exponent - 2)
  value := .scaled significand 2 exponent
  high := .scaled (4 * significand + 2) 2 (exponent - 2)
  closed := significand % 2 = 0

/-- Whether a ratio rounds to the number. -/
def contains (interval : RoundingInterval) (r : Ratio) : Bool :=
  if interval.closed then interval.low.le r && r.le interval.high
  else interval.low.lt r && r.lt interval.high

/-- Of the two multiples of `10 ^ unit` around the number, the nearest one that
reads back. -/
def multiple? (interval : RoundingInterval) (unit : Int) : Option Nat :=
  let scaled := interval.value.unscale 10 unit
  let below := scaled.floor
  let above := below + 1
  let belowFits := interval.contains (.scaled below 10 unit)
  let aboveFits := interval.contains (.scaled above 10 unit)
  if belowFits && !(aboveFits && Ratio.le ⟨below + above, 2⟩ scaled) then some below
  else if aboveFits then some above
  else none

/-- The digits and the exponent of the shortest decimal that reads back.
Seventeen digits always do. -/
def shortest (interval : RoundingInterval) : Nat × Int :=
  let scale := interval.value.log 10
  let found := (List.range 17).findSome? fun (more : Nat) =>
    (interval.multiple? (scale - more)).map fun digits => (digits, scale - more)
  found.getD ((interval.value.unscale 10 (scale - 16)).floor, scale - 16)

end RoundingInterval

/-- The decimal point placed into a digit string, trailing zeros after it
dropped. -/
def positional (digits : Nat) (exponent : Int) : List Char :=
  let written := Nat.toDigits 10 digits
  if 0 ≤ exponent then written ++ List.replicate exponent.toNat '0'
  else
    let places := (-exponent).toNat
    let padded := List.replicate (places + 1 - written.length) '0' ++ written
    let whole := padded.take (padded.length - places)
    let fraction := (padded.drop (padded.length - places)).reverse.dropWhile (· == '0')
    if fraction.isEmpty then whole else whole ++ '.' :: fraction.reverse

/-- The text of a positive finite number given by its encoding. -/
def magnitudeText (bits : Nat) : List Char :=
  let biased : Nat := bits / (1 <<< 52)
  let fraction := bits % (1 <<< 52)
  let interval :=
    if biased = 0 then RoundingInterval.ofBinary fraction (-1074) false
    else .ofBinary ((1 <<< 52) + fraction) (biased - 1075) (fraction == 0 && biased != 1)
  let (digits, exponent) := interval.shortest
  positional digits exponent

/-- The text of a binary64 number. -/
def text (x : Float) : String :=
  let bits := x.toBits.toNat
  let magnitude := bits % (1 <<< 63)
  let infinite := 0x7ff <<< 52
  if infinite < magnitude then "NaN"
  else
    let written :=
      if magnitude = infinite then "inf".toList
      else if magnitude = 0 then ['0']
      else magnitudeText magnitude
    String.ofList (if bits = magnitude then written else '-' :: written)

end Nonbonded.Decimal
