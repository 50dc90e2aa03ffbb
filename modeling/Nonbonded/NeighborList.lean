import Nonbonded.Neighbors

/-!
# Neighbor lists from a scan of all pairs

A `NeighborList` lists the particles whose nearest images lie closer than a
cutoff plus a buffer.  It is rebuilt by testing every pair of particles once,
and remembers the timestep of its last rebuild: for the same timestep and the
same number of particles it keeps its lists, whatever the positions.  Changing
a radius or the storage mode forgets that timestep.
-/

namespace Nonbonded

/-- Lists of near particles, and what they are rebuilt from. -/
structure NeighborList (α : Type) where
  cutoff : α
  buffer : α
  mode : StorageMode
  lists : Array (Array Nat)
  builtFor : Option Nat

namespace NeighborList

variable {α : Type}

/-- The list of given radii that has never been built. -/
def create (cutoff buffer : α) (mode : StorageMode) : NeighborList α :=
  ⟨cutoff, buffer, mode, #[], none⟩

/-- Store pairs in another way. -/
def setMode (list : NeighborList α) (mode : StorageMode) : NeighborList α :=
  { list with mode, builtFor := none }

/-- List particles within other radii. -/
def setRadii (list : NeighborList α) (cutoff buffer : α) : NeighborList α :=
  { list with cutoff, buffer, builtFor := none }

/-- Forget the last rebuild, so that the next refresh scans again. -/
def forget (list : NeighborList α) : NeighborList α :=
  { list with builtFor := none }

/-- The number of listed pairs. -/
def pairCount (list : NeighborList α) : Nat :=
  let listed := list.lists.foldl (· + ·.size) 0
  match list.mode with
  | .half => listed
  | .full => listed / 2

/-- The candidate partners of a particle. -/
def neighbors (list : NeighborList α) (particle : Nat) : Except Fault (Array Nat) :=
  entryAt list.lists particle

/-- Every pair of entries of a list, the earlier one first, in lexicographic
order. -/
def pairs {β : Type} : List β → List (β × β)
  | [] => []
  | first :: rest => rest.map (first, ·) ++ pairs rest

/-- Enter a pair of particles, the smaller one first. -/
def enter (mode : StorageMode) (lists : Array (Array Nat)) (first second : Nat) :
    Array (Array Nat) :=
  let lists := lists.modify first (·.push second)
  match mode with
  | .half => lists
  | .full => lists.modify second (·.push first)

@[simp]
theorem size_enter (mode : StorageMode) (lists : Array (Array Nat)) (first second : Nat) :
    (enter mode lists first second).size = lists.size := by
  cases mode <;> simp [enter]

variable [Scalar α]

/-- The separation below which particles are listed. -/
def reach (list : NeighborList α) : α :=
  list.cutoff + list.buffer

/-- Whether the nearest images of two positions are closer than a reach. -/
def near (box : Box α) (reach : α) (first second : Vec3 α) : Bool :=
  (box.minimumImage (first - second)).normSq < reach * reach

/-- Test a pair of particles, each with its position and its index, and enter
it when it is near. -/
def enterIfNear (mode : StorageMode) (box : Box α) (reach : α) (lists : Array (Array Nat))
    (pair : (Vec3 α × Nat) × (Vec3 α × Nat)) : Array (Array Nat) :=
  if near box reach pair.1.1 pair.2.1 then enter mode lists pair.1.2 pair.2.2 else lists

@[simp]
theorem size_enterIfNear (mode : StorageMode) (box : Box α) (reach : α) (lists : Array (Array Nat))
    (pair : (Vec3 α × Nat) × (Vec3 α × Nat)) :
    (enterIfNear mode box reach lists pair).size = lists.size := by
  unfold enterIfNear
  split <;> simp

/-- The lists of a system: every pair of particles is tested once, from its
smaller index. -/
def scan (mode : StorageMode) (reach : α) (system : ParticleSystem α) : Array (Array Nat) :=
  (pairs system.positions.toList.zipIdx).foldl (enterIfNear mode system.box reach)
    (.replicate system.size #[])

@[simp]
theorem size_scan (mode : StorageMode) (reach : α) (system : ParticleSystem α) :
    (scan mode reach system).size = system.size := by
  have kept : ∀ (tested : List ((Vec3 α × Nat) × (Vec3 α × Nat))) (lists : Array (Array Nat)),
      (tested.foldl (enterIfNear mode system.box reach) lists).size = lists.size := by
    intro tested
    induction tested with
    | nil => exact fun _ => rfl
    | cons first rest inductionHypothesis =>
        intro lists
        rw [List.foldl_cons, inductionHypothesis, size_enterIfNear]
  rw [scan, kept, Array.size_replicate]

/-- Rebuild the lists for a timestep. -/
def build (list : NeighborList α) (timestep : Nat) (system : ParticleSystem α) : NeighborList α :=
  { list with
    lists := scan list.mode list.reach system
    builtFor := some timestep }

/-- Whether the lists already stand for a timestep and a number of
particles. -/
def isCurrent (list : NeighborList α) (timestep : Nat) (system : ParticleSystem α) : Bool :=
  list.builtFor == some timestep && list.lists.size == system.size

/-- Rebuild the lists unless they are current. -/
def refresh (list : NeighborList α) (timestep : Nat) (system : ParticleSystem α) :
    NeighborList α :=
  if list.isCurrent timestep system then list else list.build timestep system

/-- After a refresh there is a list for every particle. -/
theorem size_lists_refresh (list : NeighborList α) (timestep : Nat) (system : ParticleSystem α) :
    (list.refresh timestep system).lists.size = system.size := by
  unfold refresh
  split
  · next current => simpa [isCurrent] using (Bool.and_eq_true_iff.1 current).2
  · simp [build]

instance : NeighborSource (NeighborList α) α where
  refresh timestep system list := list.refresh timestep system
  mode list := list.mode
  size list := list.lists.size
  neighbors := neighbors

/-- A change of a neighbor list, or a refresh of it. -/
inductive Edit (α : Type) [Scalar α] where
  | mode (mode : StorageMode)
  | radii (cutoff buffer : α)
  | forget
  | refresh (timestep : Nat) (system : ParticleSystem α)

/-- Carry out an edit. -/
def edit (list : NeighborList α) : Edit α → NeighborList α
  | .mode mode => list.setMode mode
  | .radii cutoff buffer => list.setRadii cutoff buffer
  | .forget => list.forget
  | .refresh timestep system => list.refresh timestep system

end NeighborList

end Nonbonded
