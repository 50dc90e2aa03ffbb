import Nonbonded.Potential

/-!
# Computing with a pair potential

`computeForces` computes the contributions to every particle of a system;
`compute` hands out the results again when they are for the asked timestep, and
remembers the timestep when it computes; `logValue` gives the total energy
under its name.  Only `compute` remembers: a call of `computeForces` replaces
the results and leaves the remembered timestep as it was.

A system is checked before anything is touched: it may not have more types than
the potential has settings for, and half of its shortest edge may not be less
than the largest cutoff.
-/

namespace Nonbonded.Potential

variable {α : Type} [Scalar α] {law : PairLaw α} {ν : Type}

/-- The largest cutoff of all pairs of types. -/
def maxCutoff (potential : Potential law ν) : α :=
  Scalar.sqrt ((potential.table.values.map (·.rcutsq)).foldl Scalar.max 0)

/-- The names of the quantities that `logValue` knows. -/
def logQuantities (_potential : Potential law ν) : List String :=
  ["pair_" ++ law.name ++ "_energy"]

/-- Refuse a system with unknown types, and one whose box cannot hold the
largest cutoff. -/
def checkSystem (potential : Potential law ν) (system : ParticleSystem α) :
    Except (Error α) Unit :=
  if potential.typeCount < system.typeCount then
    .error (.typeCountMismatch system.typeCount potential.typeCount)
  else
    let (axis, halfLength) := system.box.minHalfLength
    if halfLength < potential.maxCutoff then
      .error (.boxTooSmall axis halfLength potential.maxCutoff)
    else .ok ()

variable [NeighborSource ν α]

/-- The sum over the listed pairs of a system under the current settings. -/
def pairSum (potential : Potential law ν) (system : ParticleSystem α) : PairSum law where
  system := system
  table := potential.table
  shiftMode := potential.shiftMode
  storage := NeighborSource.mode potential.source

/-- Compute the forces, energies and virials of every particle. -/
def computeForces (potential : Potential law ν) (timestep : Nat) (system : ParticleSystem α) :
    Except Fault (Reply (Error α) Unit (Potential law ν)) :=
  match potential.checkSystem system with
  | .error error => .ok (.refuse error potential)
  | .ok () =>
      let refreshed :=
        { potential with source := NeighborSource.refresh timestep system potential.source }
      let listed := NeighborSource.size refreshed.source
      if listed ≠ system.size then
        .ok (.refuse (.particleCountMismatch system.size listed) refreshed)
      else do
        let results ←
          (refreshed.pairSum system).total (NeighborSource.neighbors refreshed.source)
        return .done () { refreshed with results }

/-- Compute the forces for a timestep, unless the results are already for
it. -/
def compute (potential : Potential law ν) (timestep : Nat) (system : ParticleSystem α) :
    Except Fault (Reply (Error α) Unit (Potential law ν)) :=
  if potential.computedFor = some timestep then .ok (.done () potential)
  else do
    let reply ← potential.computeForces timestep system
    return reply.andThen fun _ potential =>
      .done () { potential with computedFor := some timestep }

/-- The value of a named quantity for a timestep, computed if needed. -/
def logValue (potential : Potential law ν) (quantity : String) (timestep : Nat)
    (system : ParticleSystem α) : Except Fault (Reply (Error α) α (Potential law ν)) :=
  if quantity ∉ potential.logQuantities then
    .ok (.refuse (.unknownQuantity quantity potential.logQuantities) potential)
  else do
    let reply ← potential.compute timestep system
    return reply.andThen fun _ potential => .done potential.results.totalEnergy potential

end Nonbonded.Potential
