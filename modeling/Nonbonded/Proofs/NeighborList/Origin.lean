import Nonbonded.NeighborList

/-!
# Where lists come from

A list that keeps its lists for a timestep has scanned them, with its present
radii and storage mode, from a system that was presented to it for that
timestep: every edit that changes a radius or the mode forgets the timestep.
Nothing is said about which of the presented systems it was, and the positions
may have changed since.

So a list holds no more than its radii, its mode and at most one system: a new
list that is refreshed from that system is the same list.
-/

namespace Nonbonded.NeighborList

variable {α : Type} [Scalar α]

/-- Lists that are kept for a timestep were scanned from a system presented for
it. -/
def BuiltFrom (presented : Nat → ParticleSystem α → Prop) (list : NeighborList α) : Prop :=
  ∀ timestep, list.builtFor = some timestep →
    ∃ system, presented timestep system ∧ list.lists = scan list.mode list.reach system

variable {presented : Nat → ParticleSystem α → Prop} {list : NeighborList α} {timestep : Nat}
  {system : ParticleSystem α}

theorem builtFrom_of_forgotten (forgotten : list.builtFor = none) : list.BuiltFrom presented := by
  intro timestep built
  rw [forgotten] at built
  cases built

theorem isCurrent_of_forgotten (forgotten : list.builtFor = none) (timestep : Nat)
    (system : ParticleSystem α) : list.isCurrent timestep system = false := by
  rw [isCurrent, forgotten]
  rfl

theorem refresh_of_current (current : list.isCurrent timestep system = true) :
    list.refresh timestep system = list :=
  if_pos current

theorem refresh_of_stale (stale : list.isCurrent timestep system = false) :
    list.refresh timestep system = list.build timestep system := by
  rw [refresh, stale]
  rfl

theorem isCurrent_iff :
    list.isCurrent timestep system = true ↔
      list.builtFor = some timestep ∧ list.lists.size = system.size := by
  simp [isCurrent]

theorem builtFrom_refresh (origin : list.BuiltFrom presented)
    (shown : presented timestep system) : (list.refresh timestep system).BuiltFrom presented := by
  cases current : list.isCurrent timestep system with
  | true =>
      rw [refresh_of_current current]
      exact origin
  | false =>
      rw [refresh_of_stale current]
      intro kept built
      cases built
      exact ⟨system, shown, rfl⟩

/-- One edit: only a refresh keeps lists for a timestep that were not kept
before. -/
theorem builtFrom_edit (origin : list.BuiltFrom presented) {change : Edit α}
    (shown : ∀ timestep system, change = .refresh timestep system → presented timestep system) :
    (list.edit change).BuiltFrom presented := by
  cases change with
  | mode mode => exact builtFrom_of_forgotten rfl
  | radii cutoff buffer => exact builtFrom_of_forgotten rfl
  | forget => exact builtFrom_of_forgotten rfl
  | refresh timestep system => exact builtFrom_refresh origin (shown timestep system rfl)

/-! ## New lists -/

/-- A new list with the radii and the storage mode of another. -/
def renewed (list : NeighborList α) : NeighborList α :=
  .create list.cutoff list.buffer list.mode

theorem refresh_renewed (list : NeighborList α) (timestep : Nat) (system : ParticleSystem α) :
    list.renewed.refresh timestep system = list.build timestep system :=
  refresh_of_stale rfl

/-- A rebuild from the system that the lists were scanned from changes
nothing. -/
theorem build_eq_self (built : list.builtFor = some timestep)
    (scanned : list.lists = scan list.mode list.reach system) :
    list.build timestep system = list := by
  rw [build, ← scanned, ← built]

/-- Lists do not depend on anything of a system besides its box and its
positions. -/
theorem scan_congr {first second : ParticleSystem α} (box : first.box = second.box)
    (positions : first.positions = second.positions) (mode : StorageMode) (reach : α) :
    scan mode reach first = scan mode reach second := by
  rw [scan, scan, ParticleSystem.size, ParticleSystem.size, box, positions]

end Nonbonded.NeighborList
