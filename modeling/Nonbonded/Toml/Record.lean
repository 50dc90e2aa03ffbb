import Nonbonded.Toml.Value

/-!
# Reading typed data from TOML values

`FromValue` reads a type from a value.  A number field takes floating-point
numbers and integers of 64 bits.  A record is a table with a value for every
field, or an array with the values in the order of the fields; what no field
asks for is passed over, as long as its numbers can be read at all.
-/

namespace Nonbonded.Toml

/-- A type that can be read from a value. -/
class FromValue (P : Type) where
  fromValue? : Value → Option P

export FromValue (fromValue?)

instance : FromValue String where
  fromValue?
    | .string text => some text
    | _ => none

instance : FromValue Float where
  fromValue?
    | .float literal => literal.toFloat?
    | .integer literal => do
        let value ← literal.toInt?
        if -Int.pow 2 63 ≤ value ∧ value < Int.pow 2 64 then
          (Decimal.Numeral.mk (value < 0) value.natAbs 0).toFloat?
        else none
    | _ => none

instance {P : Type} [FromValue P] : FromValue (List P) where
  fromValue?
    | .array _ items => items.mapM fromValue?
    | _ => none

/-- Two values of one type, the first two items of an array. -/
instance {P : Type} [FromValue P] : FromValue (P × P) where
  fromValue?
    | .array _ (first :: second :: _) => do return (← fromValue? first, ← fromValue? second)
    | _ => none

/-- The values of named fields, as far as they are given. -/
structure Record where
  fields : List (String × Value)

namespace Record

/-- The record of the fields with given names that a value holds. -/
def ofValue? (names : List String) : Value → Option Record
  | .table _ entries =>
      if (entries.filter fun (name, _) => !names.contains name).all (·.2.isReadable) then
        some ⟨entries⟩
      else none
  | .array _ items => some ⟨names.zip items⟩
  | _ => none

/-- A field that may be left out. -/
def optional? {P : Type} [FromValue P] (record : Record) (name : String) : Option (Option P) :=
  match record.fields.lookup name with
  | some value => (fromValue? value).map some
  | none => some none

/-- A field that has a value of its own when it is left out. -/
def withDefault? {P : Type} [FromValue P] (record : Record) (name : String) (absent : P) :
    Option P :=
  (record.optional? name).map (·.getD absent)

/-- A field that has to be given. -/
def required? {P : Type} [FromValue P] (record : Record) (name : String) : Option P :=
  (record.fields.lookup name).bind fromValue?

end Record

end Nonbonded.Toml
