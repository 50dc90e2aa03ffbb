import Nonbonded.Potential.Computation

/-!
# Requests to a potential

Every operation on a potential as a value, so that runs of operations can be
written down and carried out.  A request that is refused leaves a state too,
from which the run goes on.
-/

namespace Nonbonded.Potential

variable {α : Type} [Scalar α] {law : PairLaw α} {ν : Type}

/-- A request to a potential. -/
inductive Operation (law : PairLaw α) (ν : Type) where
  | setParams (type1 type2 : Nat) (params : law.Params)
  | setCutoff (type1 type2 : Nat) (value : α)
  | setOnset (type1 type2 : Nat) (value : α)
  | setShiftMode (mode : ShiftMode)
  | applyFile (file : ParameterFile α law.Params) (typeNames : Array String)
  | invalidate
  | editSource (change : ν → ν)
  | compute (timestep : Nat) (system : ParticleSystem α)
  | computeForces (timestep : Nat) (system : ParticleSystem α)
  | logValue (quantity : String) (timestep : Nat) (system : ParticleSystem α)

variable [NeighborSource ν α]

/-- Carry out a request.  The answer holds a number when the request asks for
one. -/
def perform (potential : Potential law ν) :
    Operation law ν → Except Fault (Reply (Error α) (Option α) (Potential law ν))
  | .setParams type1 type2 params =>
    .ok ((potential.setParams type1 type2 params).map fun _ => none)
  | .setCutoff type1 type2 value => .ok ((potential.setCutoff type1 type2 value).map fun _ => none)
  | .setOnset type1 type2 value => .ok ((potential.setOnset type1 type2 value).map fun _ => none)
  | .setShiftMode mode => .ok (.done none (potential.setShiftMode mode))
  | .applyFile file typeNames => .ok ((potential.applyFile file typeNames).map fun _ => none)
  | .invalidate => .ok (.done none potential.invalidate)
  | .editSource change => .ok (.done none (potential.editSource change))
  | .compute timestep system =>
      (potential.compute timestep system).map (·.map fun _ => none)
  | .computeForces timestep system =>
      (potential.computeForces timestep system).map (·.map fun _ => none)
  | .logValue quantity timestep system =>
      (potential.logValue quantity timestep system).map (·.map some)

/-- Carry out requests in order. -/
def run (potential : Potential law ν) (operations : List (Operation law ν)) :
    Except Fault (Potential law ν) :=
  operations.foldlM
    (fun potential operation => do return (← potential.perform operation).state) potential

end Nonbonded.Potential
