import Nonbonded.Accumulators
import Nonbonded.Law
import Nonbonded.Neighbors
import Nonbonded.ShiftMode
import Nonbonded.TypePair.Table

/-!
# Summing pair interactions

A `PairSum` fixes everything a sum over listed pairs reads: the system, the
table of cutoffs and parameters, the shift mode, and whether a pair is listed
once or from both sides.  `term` is what one listed partner contributes to a
particle; `accumulate` adds the terms of one particle's list, and
`accumulateAll` those of several particles, so a sum over all particles can be
split anywhere.

When a pair is listed once, its reaction goes to the partner at once, and the
particle's own total is added after its list is done.
-/

namespace Nonbonded

/-- Squared cutoff, squared onset and parameters of one pair of types. -/
structure PairEntry {α : Type} (law : PairLaw α) where
  rcutsq : α
  ronsq : α
  params : law.Params

/-- The values of a table over type pairs for a law. -/
abbrev PairTable {α : Type} (law : PairLaw α) :=
  TypePair.Table (PairEntry law)

variable {α : Type} [Scalar α]

/-- The entry of a pair of types for which nothing was set. -/
def PairEntry.unset (law : PairLaw α) : PairEntry law :=
  ⟨0, 0, law.unset⟩

/-- The interaction of a pair inside its cutoff: the law's result, smoothed
where the mode asks for it. -/
def PairEntry.interaction? {law : PairLaw α} (entry : PairEntry law) (mode : ShiftMode) (rsq : α)
    (diameters charges : Option (α × α)) : Option (Interaction α) :=
  (law.evaluate entry.params ⟨rsq, entry.rcutsq, diameters, charges⟩
      (mode.shifts entry.rcutsq entry.ronsq)).map
    fun raw => mode.apply raw rsq entry.rcutsq entry.ronsq

/-- The share of one particle in an interaction: half of the energy, a sixth of
the squared separation times the force over distance as virial. -/
def Interaction.share (pair : Interaction α) (offset : Vec3 α) (rsq : α) : Contribution α where
  force := offset.scale pair.forceOverDistance
  energy := Scalar.half * pair.energy
  virial := 1 / 6 * rsq * pair.forceOverDistance

/-- What a sum over listed pairs reads. -/
structure PairSum (law : PairLaw α) where
  system : ParticleSystem α
  table : PairTable law
  shiftMode : ShiftMode
  storage : StorageMode

namespace PairSum

variable {law : PairLaw α}

/-- A property of both particles of a pair, when the law needs it. -/
def both (needed : Bool) (property : Nat → Except Fault α) (i j : Nat) :
    Except Fault (Option (α × α)) :=
  if needed then do
    let first ← property i
    let second ← property j
    return some (first, second)
  else return none

/-- The nearest image of the displacement from the second particle to the
first. -/
def separation (sum : PairSum law) (i j : Nat) : Except Fault (Vec3 α) := do
  let here ← sum.system.position i
  let there ← sum.system.position j
  return sum.system.box.minimumImage (here - there)

/-- The table entry of the types of two particles. -/
def entry (sum : PairSum law) (i j : Nat) : Except Fault (PairEntry law) := do
  let first ← sum.system.typeOf i
  let second ← sum.system.typeOf j
  sum.table.get first second

/-- What a listed partner `j` contributes to particle `i`: nothing at or beyond
the cutoff, or when the law is switched off. -/
def term (sum : PairSum law) (i j : Nat) : Except Fault (Option (Contribution α)) := do
  let offset ← sum.separation i j
  let entry ← sum.entry i j
  let rsq := offset.normSq
  if entry.rcutsq ≤ rsq then return none
  else
    let diameters ← both law.needsDiameter sum.system.diameter i j
    let charges ← both law.needsCharge sum.system.charge i j
    return (entry.interaction? sum.shiftMode rsq diameters charges).map (·.share offset rsq)

/-- Take up one listed partner: the running total of particle `i` grows, and a
pair that is listed once also acts on the partner. -/
def takeUp (sum : PairSum law) (i : Nat) (running : Contribution α × Accumulators α) (j : Nat) :
    Except Fault (Contribution α × Accumulators α) := do
  match ← sum.term i j with
  | none => return running
  | some share =>
      match sum.storage with
      | .half => return (running.1 + share, ← running.2.add j share.reaction)
      | .full => return (running.1 + share, running.2)

/-- Add the interactions of a particle with its listed partners. -/
def accumulate (sum : PairSum law) (i : Nat) (partners : Array Nat) (acc : Accumulators α) :
    Except Fault (Accumulators α) := do
  let (own, acc) ← partners.foldlM (sum.takeUp i) (.zero, acc)
  acc.add i own

/-- Add the interactions of several particles, one after the other. -/
def accumulateAll (sum : PairSum law) (neighbors : Nat → Except Fault (Array Nat))
    (particles : List Nat) (acc : Accumulators α) : Except Fault (Accumulators α) :=
  particles.foldlM (fun acc i => do sum.accumulate i (← neighbors i) acc) acc

/-- The summed contributions of every particle of the system. -/
def total (sum : PairSum law) (neighbors : Nat → Except Fault (Array Nat)) :
    Except Fault (Accumulators α) :=
  sum.accumulateAll neighbors (List.range sum.system.size) (.zeroed sum.system.size)

end PairSum

end Nonbonded
