import Nonbonded.Law.Gauss
import Nonbonded.Law.LennardJones
import Nonbonded.Law.Yukawa
import Nonbonded.ParameterFile
import Nonbonded.Toml.Document
import Nonbonded.Toml.Record

/-!
# Loading parameter files

A parameter file is a TOML document with a shift mode and an array of pair
entries; either may be left out.

shift_mode = "xplor"

[[pair]] types = ["A", "A"] r_cut = 2.5 r_on = 2.0 params = { epsilon = 1.0,
sigma = 1.0 }
-/

namespace Nonbonded

open Toml (FromValue Record fromValue?)

/-- A mode is its name, or a table with its name as the only key and nothing in
it. -/
instance : FromValue ShiftMode where
  fromValue?
    | .string text => ShiftMode.ofName? text
    | .table _ [(key, .table _ [])] => ShiftMode.ofName? key
    | .table _ [(key, .array _ [])] => ShiftMode.ofName? key
    | _ => none

instance : FromValue (LennardJones.Params Float) where
  fromValue? value := do
    let record ← Record.ofValue? ["epsilon", "sigma", "alpha"] value
    return {
      epsilon := ← record.required? "epsilon"
      sigma := ← record.required? "sigma"
      alpha := ← record.withDefault? "alpha" 1 }

instance : FromValue (Gauss.Params Float) where
  fromValue? value := do
    let record ← Record.ofValue? ["epsilon", "sigma"] value
    return { epsilon := ← record.required? "epsilon", sigma := ← record.required? "sigma" }

instance : FromValue (Yukawa.Params Float) where
  fromValue? value := do
    let record ← Record.ofValue? ["epsilon", "kappa"] value
    return { epsilon := ← record.required? "epsilon", kappa := ← record.required? "kappa" }

instance : FromValue (Coulomb.Params Float) where
  fromValue? value := do
    let record ← Record.ofValue? ["prefactor", "kappa"] value
    return {
      prefactor := ← record.required? "prefactor"
      kappa := ← record.withDefault? "kappa" 0 }

instance {P : Type} [FromValue P] : FromValue (NamedPair Float P) where
  fromValue? value := do
    let record ← Record.ofValue? ["types", "r_cut", "r_on", "params"] value
    let (name1, name2) ← record.required? "types"
    return {
      name1, name2
      cutoff := ← record.required? "r_cut"
      onset := ← record.optional? "r_on"
      params := ← record.required? "params" }

instance {P : Type} [FromValue P] : FromValue (ParameterFile Float P) where
  fromValue? value := do
    let record ← Record.ofValue? ["shift_mode", "pair"] value
    return {
      shiftMode := ← record.withDefault? "shift_mode" .none
      pairs := ← record.withDefault? "pair" [] }

/-- Why no settings could be loaded. -/
inductive LoadError where
  /-- There is no text: the file is missing, or its bytes are not UTF-8. -/
  | unreadable
  /-- The text is not a TOML document with the expected fields. -/
  | malformed
  deriving DecidableEq

namespace ParameterFile

variable {P : Type} [FromValue P]

/-- The settings that a text states. -/
def ofText (text : String) : Except LoadError (ParameterFile Float P) :=
  match (Toml.parse text).bind fromValue? with
  | some file => .ok file
  | none => .error .malformed

/-- The settings that the contents of a file state, if there is such a file. -/
def load (contents : Option ByteArray) : Except LoadError (ParameterFile Float P) :=
  match contents.bind String.fromUTF8? with
  | some text => ofText text
  | none => .error .unreadable

end ParameterFile

end Nonbonded
