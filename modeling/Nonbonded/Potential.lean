import Nonbonded.Error
import Nonbonded.PairSum

/-!
# Pair potentials

A `Potential` computes the pair forces of one law.  It holds a table of
cutoffs, onsets and parameters, a shift mode, a neighbor source, the results of
the latest computation, and the timestep for which those results may be handed
out again.

This module holds the settings.  Every change of them that is accepted, and
every access to the neighbor source that may change it, drops the remembered
timestep; a request that is refused changes nothing.
-/

namespace Nonbonded

/-- A pair potential with its settings and latest results. -/
structure Potential {α : Type} (law : PairLaw α) (ν : Type) where
  source : ν
  shiftMode : ShiftMode
  table : PairTable law
  results : Accumulators α
  /-- The timestep for which the results may be handed out again. -/
  computedFor : Option Nat

namespace Potential

variable {α : Type} [Scalar α] {law : PairLaw α} {ν : Type}

/-- The potential with nothing set; faults when there are too many types for a
table. -/
def create (law : PairLaw α) (typeCount : Nat) (source : ν) : Except Fault (Potential law ν) := do
  let table ← TypePair.Table.create typeCount (PairEntry.unset law)
  return { source, shiftMode := .none, table, results := .empty, computedFor := none }

/-- The number of particle types the potential has settings for. -/
def typeCount (potential : Potential law ν) : Nat :=
  potential.table.typeCount

/-- Drop the remembered timestep. -/
def invalidate (potential : Potential law ν) : Potential law ν :=
  { potential with computedFor := none }

/-- Change the settings of a pair of types. -/
def updateEntry (potential : Potential law ν) (type1 type2 : Nat)
    (change : PairEntry law → PairEntry law) : Reply (Error α) Unit (Potential law ν) :=
  let reply := potential.table.update type1 type2 change
  match reply.answer with
  | .ok _ => .done () { potential with table := reply.state, computedFor := none }
  | .error error => .refuse (.invalidType error) potential

/-- Change the settings of a pair of types by a radius that has to be valid. -/
def updateRadius (potential : Potential law ν) (radius : Radius) (type1 type2 : Nat) (value : α)
    (change : PairEntry law → PairEntry law) : Reply (Error α) Unit (Potential law ν) :=
  if Radius.isValid value then potential.updateEntry type1 type2 change
  else .refuse (.invalidRadius radius value type1 type2) potential

/-- Set the parameters of a pair of types. -/
def setParams (potential : Potential law ν) (type1 type2 : Nat) (params : law.Params) :
    Reply (Error α) Unit (Potential law ν) :=
  potential.updateEntry type1 type2 fun entry => { entry with params }

/-- Set the cutoff of a pair of types; its square is kept. -/
def setCutoff (potential : Potential law ν) (type1 type2 : Nat) (value : α) :
    Reply (Error α) Unit (Potential law ν) :=
  potential.updateRadius .cutoff type1 type2 value fun entry =>
    { entry with rcutsq := value * value }

/-- Set the onset of smoothing of a pair of types; its square is kept. -/
def setOnset (potential : Potential law ν) (type1 type2 : Nat) (value : α) :
    Reply (Error α) Unit (Potential law ν) :=
  potential.updateRadius .onset type1 type2 value fun entry =>
    { entry with ronsq := value * value }

/-- Choose how energies are treated at the cutoff. -/
def setShiftMode (potential : Potential law ν) (mode : ShiftMode) : Potential law ν :=
  { potential with shiftMode := mode, computedFor := none }

/-- Change the neighbor source. -/
def editSource (potential : Potential law ν) (change : ν → ν) : Potential law ν :=
  { potential with source := change potential.source, computedFor := none }

/-- Install the settings of one pair of types. -/
def install (potential : Potential law ν) (pair : ResolvedPair α law.Params) :
    Reply (Error α) Unit (Potential law ν) :=
  (potential.setParams pair.type1 pair.type2 pair.params).andThen fun _ potential =>
    (potential.setCutoff pair.type1 pair.type2 pair.cutoff).andThen fun _ potential =>
      match pair.onset with
      | some value => potential.setOnset pair.type1 pair.type2 value
      | none => .done () potential

/-- Install the settings of several pairs of types in order, up to the first
that is refused. -/
def installAll (potential : Potential law ν) (pairs : List (ResolvedPair α law.Params)) :
    Reply (Error α) Unit (Potential law ν) :=
  pairs.foldl (fun reply pair => reply.andThen fun _ potential => potential.install pair)
    (.done () potential)

/-- Install the settings of a file, whose names are all resolved before
anything is touched. -/
def applyFile (potential : Potential law ν) (file : ParameterFile α law.Params)
    (typeNames : Array String) : Reply (Error α) Unit (Potential law ν) :=
  if typeNames.size ≠ potential.typeCount then
    .refuse (.typeCountMismatch typeNames.size potential.typeCount) potential
  else
    match file.resolve typeNames with
    | .error error => .refuse (.parameters error) potential
    | .ok pairs =>
        (potential.installAll pairs).andThen fun _ potential =>
          .done () (potential.setShiftMode file.shiftMode)

end Potential

end Nonbonded
