import Nonbonded.Decimal.Numeral
import Nonbonded.Text.Digits

/-!
# TOML values

The values of a TOML 1.1 document.  Numbers are kept exactly as written, so
that a number that has no value, or one out of every range, is an error only
where it is read.  A table remembers how it came to be, and an array whether it
collects the sections under `[[…]]` headers, since later statements of a
document may extend some of them and not others.
-/

namespace Nonbonded.Toml

/-- An integer as written: its sign, its base, and what stands for its
digits. -/
structure IntegerLiteral where
  negative : Bool
  base : Nat
  digits : List Char

/-- The value of an integer, when it has digits and all of them belong to its
base. -/
def IntegerLiteral.toInt? (literal : IntegerLiteral) : Option Int := do
  let magnitude ← Text.number? literal.base literal.digits
  if literal.digits.isEmpty then none
  else return if literal.negative then -magnitude else magnitude

/-- A floating-point number as written. -/
inductive FloatLiteral where
  | finite (numeral : Decimal.Numeral)
  | infinite (negative : Bool)
  | nan

/-- The nearest binary64 number; a finite number beyond the range has none. -/
def FloatLiteral.toFloat? : FloatLiteral → Option Float
  | .finite numeral => numeral.toFloat?
  | .infinite negative => some (if negative then -1 / 0 else 1 / 0)
  | .nan => some (0 / 0)

/-- How a table came to be. -/
inductive Origin where
  /-- By a header of its own. -/
  | header
  /-- On the way to a longer header. -/
  | implied
  /-- On the way to a dotted key. -/
  | dotted
  /-- In braces; such a table is complete. -/
  | inline
  deriving DecidableEq

/-- A value of a document.  The keys of a table are distinct. -/
inductive Value where
  | string (text : String)
  | integer (literal : IntegerLiteral)
  | float (literal : FloatLiteral)
  | boolean (value : Bool)
  /-- A date, a time, or both. -/
  | moment
  | array (ofSections : Bool) (items : List Value)
  | table (origin : Origin) (entries : List (String × Value))

/-- Named values. -/
abbrev Entries := List (String × Value)

/-- Whether an integer can be read at all: it has 128 bits, with or without a
sign. -/
def IntegerLiteral.isReadable (literal : IntegerLiteral) : Bool :=
  literal.toInt?.any fun value => -Int.pow 2 127 ≤ value && value < Int.pow 2 128

mutual

/-- Whether every number of a value can be read as a number of some width. -/
def Value.isReadable : Value → Bool
  | .integer literal => literal.isReadable
  | .float literal => literal.toFloat?.isSome
  | .array _ items => itemsReadable items
  | .table _ entries => entriesReadable entries
  | .string _ | .boolean _ | .moment => true

/-- Whether every number of some values can be read. -/
def itemsReadable : List Value → Bool
  | [] => true
  | item :: items => item.isReadable && itemsReadable items

/-- Whether every number of some named values can be read. -/
def entriesReadable : List (String × Value) → Bool
  | [] => true
  | (_, value) :: entries => value.isReadable && entriesReadable entries

end

end Nonbonded.Toml
