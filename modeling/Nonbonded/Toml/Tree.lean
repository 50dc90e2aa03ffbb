import Nonbonded.Toml.Value

/-!
# Growing a document

The statements of a document put values at key paths of a growing table.  A
path descends through tables and into the last section of an array of sections,
and makes the tables it misses.  What may be extended depends on how a table
came to be: a table in braces is complete, a dotted key does not enter a table
that has a header, and a header does not reopen a table that has one or that
dotted keys made.
-/

namespace Nonbonded.Toml

namespace Entries

/-- Change the value of a key that is present. -/
def replace (entries : Entries) (key : String) (value : Value) : Entries :=
  entries.map fun (name, old) => if name == key then (name, value) else (name, old)

/-- Give a value to a key that is not present. -/
def insert? (entries : Entries) (key : String) (value : Value) : Option Entries :=
  if (entries.lookup key).isSome then none else some (entries ++ [(key, value)])

/-- Change the table at a path of keys by a function that is told how the table
came to be.  Tables missed on the way are made with the origin `made`; with
`Origin.dotted` the path is that of a dotted key.  The argument `origin` is
that of the table the path starts from. -/
def change? (made : Origin) (change : Origin → Entries → Option Entries) (origin : Origin) :
    List String → Entries → Option Entries
  | [], entries => change origin entries
  | key :: path, entries =>
      match entries.lookup key with
      | none => do
          let inner ← change? made change made path []
          return entries ++ [(key, .table made inner)]
      | some (.table origin inner) =>
          if origin = .inline ∨ (made = .dotted ∧ origin = .header) then none
          else do
            let inner ← change? made change origin path inner
            return replace entries key (.table origin inner)
      | some (.array true items) =>
          match items.getLast? with
          | some (.table origin inner) => do
              let inner ← change? made change origin path inner
              return replace entries key (.array true (items.dropLast ++ [.table origin inner]))
          | _ => none
      | some _ => none

/-- Give a value to a dotted key: the keys before the last, and the last.  A
table reached through other keys has to have come to be by dotted keys
itself. -/
def assign? (path : List String) (key : String) (value : Value) (entries : Entries) :
    Option Entries :=
  change? .dotted
    (fun origin inner =>
      if path.isEmpty ∨ origin = .dotted then insert? inner key value else none)
    .header path entries

/-- Open the section of a header: the keys before the last, and the last.  A
table that was only implied so far keeps what it has. -/
def openTable? (path : List String) (key : String) (entries : Entries) : Option Entries :=
  change? .implied
    (fun _ inner =>
      match inner.lookup key with
      | none => some (inner ++ [(key, .table .header [])])
      | some (.table .implied kept) => some (replace inner key (.table .header kept))
      | some _ => none)
    .header path entries

/-- Open a further section of an array of sections. -/
def openItem? (path : List String) (key : String) (entries : Entries) : Option Entries :=
  change? .implied
    (fun _ inner =>
      match inner.lookup key with
      | none => some (inner ++ [(key, .array true [.table .header []])])
      | some (.array true items) =>
          some (replace inner key (.array true (items ++ [.table .header []])))
      | some _ => none)
    .header path entries

/-- Give a value to a dotted key inside an open section. -/
def assignIn? (current path : List String) (key : String) (value : Value) (entries : Entries) :
    Option Entries :=
  change? .implied (fun _ inner => assign? path key value inner) .header current entries

end Entries

end Nonbonded.Toml
