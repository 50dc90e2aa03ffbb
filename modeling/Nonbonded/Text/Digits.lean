/-!
# Rows of digits

The digits of the bases up to sixteen, letters in either case, and the number
that a row of them stands for.
-/

namespace Nonbonded.Text

/-- The number of a digit. -/
def digit? (c : Char) : Option Nat :=
  if c.isDigit then some (c.toNat - '0'.toNat)
  else if 'a' ≤ c && c ≤ 'f' then some (c.toNat - 'a'.toNat + 10)
  else if 'A' ≤ c && c ≤ 'F' then some (c.toNat - 'A'.toNat + 10)
  else none

/-- Whether a character is a digit of a base. -/
def isDigit (base : Nat) (c : Char) : Bool :=
  (digit? c).any (· < base)

/-- The number of a row of digits in a base, when all of them are digits of
that base. -/
def number? (base : Nat) (digits : List Char) : Option Nat :=
  digits.foldlM
    (fun value c => do
      let digit ← digit? c
      if digit < base then return value * base + digit else none)
    0

end Nonbonded.Text
