import Nonbonded.Radius
import Nonbonded.ShiftMode

/-!
# Parameter files

The settings of a potential as a file states them: a shift mode, and one entry
for each named pair of types.  `ParameterFile.resolve` turns type names into
indices.  It fails as a whole at the first entry with a radius that cannot be
set or a name that no type has, so a resolved file can be installed without
further checks.
-/

namespace Nonbonded

/-- The settings of one pair of types, named by its types. -/
structure NamedPair (α P : Type) where
  name1 : String
  name2 : String
  cutoff : α
  onset : Option α
  params : P

/-- The settings of one pair of types, given by their indices. -/
structure ResolvedPair (α P : Type) where
  type1 : Nat
  type2 : Nat
  cutoff : α
  onset : Option α
  params : P

/-- The settings of a potential. -/
structure ParameterFile (α P : Type) where
  shiftMode : ShiftMode
  pairs : List (NamedPair α P)

/-- Why a file does not fit a list of type names. -/
inductive ResolveError (α : Type) where
  | unknownType (name : String)
  | invalidRadius (radius : Radius) (value : α) (name1 name2 : String)
  deriving DecidableEq

/-- The first index of a name. -/
def lookUp {α : Type} (typeNames : Array String) (name : String) :
    Except (ResolveError α) Nat :=
  match typeNames.findIdx? (· == name) with
  | some type => .ok type
  | none => .error (.unknownType name)

namespace NamedPair

variable {α P : Type} [Scalar α]

/-- The radii that an entry states, the cutoff first. -/
def radii (pair : NamedPair α P) : List (Radius × α) :=
  (.cutoff, pair.cutoff) :: (pair.onset.map fun value => (.onset, value)).toList

/-- Replace the names of an entry by indices, once its radii are found
valid. -/
def resolve (pair : NamedPair α P) (typeNames : Array String) :
    Except (ResolveError α) (ResolvedPair α P) :=
  match pair.radii.find? fun (_, value) => !Radius.isValid value with
  | some (radius, value) => .error (.invalidRadius radius value pair.name1 pair.name2)
  | none => do
      let type1 ← lookUp typeNames pair.name1
      let type2 ← lookUp typeNames pair.name2
      return { pair with type1, type2 }

end NamedPair

/-- Replace every name of a file by an index, in the order of the file. -/
def ParameterFile.resolve {α P : Type} [Scalar α] (file : ParameterFile α P)
    (typeNames : Array String) : Except (ResolveError α) (List (ResolvedPair α P)) :=
  file.pairs.mapM (·.resolve typeNames)

end Nonbonded
