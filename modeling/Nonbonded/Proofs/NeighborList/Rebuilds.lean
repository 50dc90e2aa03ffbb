import Mathlib.Data.List.Induction
import Nonbonded.Proofs.NeighborList.Origin
import Nonbonded.Proofs.ParticleSystem.Arrays

/-!
# When lists are rebuilt

A refresh keeps the lists of a neighbor list only when the edit right before it
was a refresh for the same timestep, and there is a list for every particle.
Every other edit drops the timestep, and a refresh for another timestep, or for
another number of particles, scans anew.

So the lists are those of the latest scan of the history, with the radii and
the storage mode of the present: no edit of either comes between that scan and
a refresh that keeps it.
-/

namespace Nonbonded.NeighborList

variable {α : Type} [Scalar α] {list : NeighborList α} {timestep : Nat} {system : ParticleSystem α}

/-! ## The remembered timestep -/

/-- The timestep of a refresh. -/
def Edit.timestep? : Edit α → Option Nat
  | .refresh timestep _ => some timestep
  | _ => none

theorem Edit.timestep?_eq_some_iff {change : Edit α} :
    change.timestep? = some timestep ↔ ∃ system, change = .refresh timestep system := by
  cases change <;> simp [timestep?]

theorem builtFor_refresh (list : NeighborList α) (timestep : Nat) (system : ParticleSystem α) :
    (list.refresh timestep system).builtFor = some timestep := by
  cases current : list.isCurrent timestep system with
  | true =>
      rw [refresh_of_current current]
      exact (isCurrent_iff.1 current).1
  | false =>
      rw [refresh_of_stale current]
      rfl

/-- One edit: a refresh leaves its timestep, and every other edit leaves
none. -/
theorem builtFor_edit (list : NeighborList α) (change : Edit α) :
    (list.edit change).builtFor = change.timestep? := by
  cases change with
  | mode mode => rfl
  | radii cutoff buffer => rfl
  | forget => rfl
  | refresh timestep system => exact builtFor_refresh list timestep system

/-- A history: the remembered timestep is that of the last edit. -/
theorem builtFor_foldl_edit (forgotten : list.builtFor = none) (history : List (Edit α)) :
    (history.foldl edit list).builtFor = history.getLast?.bind Edit.timestep? := by
  induction history using List.reverseRecOn with
  | nil => exact forgotten
  | append_singleton history change _ =>
      rw [List.foldl_append, List.getLast?_concat]
      exact builtFor_edit _ change

/-- A history: the lists are current exactly when the last edit was a refresh
for the same timestep. -/
theorem isCurrent_foldl_edit_iff (forgotten : list.builtFor = none) (history : List (Edit α)) :
    (history.foldl edit list).isCurrent timestep system = true ↔
      (∃ earlier, history.getLast? = some (.refresh timestep earlier)) ∧
        (history.foldl edit list).lists.size = system.size := by
  rw [isCurrent_iff, builtFor_foldl_edit forgotten, Option.bind_eq_some_iff]
  simp only [Edit.timestep?_eq_some_iff]
  constructor
  · rintro ⟨⟨_, last, earlier, rfl⟩, sized⟩
    exact ⟨⟨earlier, last⟩, sized⟩
  · rintro ⟨⟨earlier, last⟩, sized⟩
    exact ⟨⟨_, last, earlier, rfl⟩, sized⟩

/-- A refresh that rebuilds never leaves the list as it was. -/
theorem refresh_eq_self_iff :
    list.refresh timestep system = list ↔ list.isCurrent timestep system = true := by
  constructor
  · intro same
    have built := list.builtFor_refresh timestep system
    have sized := list.size_lists_refresh timestep system
    rw [same] at built sized
    exact isCurrent_iff.2 ⟨built, sized⟩
  · exact refresh_of_current

theorem refresh_eq_build_of_ne (changed : list.refresh timestep system ≠ list) :
    list.refresh timestep system = list.build timestep system := by
  apply refresh_of_stale
  rw [← Bool.not_eq_true, ← refresh_eq_self_iff]
  exact changed

/-! ## The latest scan -/

/-- The system that an edit scans: that of a refresh which rebuilds. -/
def scanned? (list : NeighborList α) : Edit α → Option (ParticleSystem α)
  | .refresh timestep system => if list.isCurrent timestep system then none else some system
  | _ => none

/-- The systems that a history of edits scans, in order. -/
def scans (list : NeighborList α) : List (Edit α) → List (ParticleSystem α)
  | [] => []
  | change :: rest => (list.scanned? change).toList ++ (list.edit change).scans rest

theorem scans_concat (list : NeighborList α) (history : List (Edit α)) (change : Edit α) :
    list.scans (history ++ [change]) =
      list.scans history ++ ((history.foldl edit list).scanned? change).toList := by
  induction history generalizing list with
  | nil => exact List.append_nil _
  | cons first rest inductionHypothesis =>
      rw [List.cons_append, scans, inductionHypothesis, scans, List.append_assoc]
      rfl

/-- One edit: lists that are kept for a timestep were scanned from the latest
system. -/
theorem builtFrom_edit_scanned {earlier : List (ParticleSystem α)}
    (origin : list.BuiltFrom fun _ system => earlier.getLast? = some system) (change : Edit α) :
    (list.edit change).BuiltFrom fun _ system =>
      (earlier ++ (list.scanned? change).toList).getLast? = some system := by
  cases change with
  | mode mode => exact builtFrom_of_forgotten rfl
  | radii cutoff buffer => exact builtFrom_of_forgotten rfl
  | forget => exact builtFrom_of_forgotten rfl
  | refresh timestep system =>
      rw [edit, scanned?]
      cases current : list.isCurrent timestep system with
      | true =>
          rw [refresh_of_current current, if_pos rfl, Option.toList_none, List.append_nil]
          exact origin
      | false =>
          rw [refresh_of_stale current, if_neg Bool.false_ne_true, Option.toList_some,
            List.getLast?_concat]
          intro kept built
          exact ⟨system, rfl, rfl⟩

/-- A history: lists that are kept for a timestep were scanned from the latest
system. -/
theorem builtFrom_foldl_edit (forgotten : list.builtFor = none) (history : List (Edit α)) :
    (history.foldl edit list).BuiltFrom fun _ system =>
      (list.scans history).getLast? = some system := by
  induction history using List.reverseRecOn with
  | nil => exact builtFrom_of_forgotten forgotten
  | append_singleton history change inductionHypothesis =>
      rw [List.foldl_append, scans_concat]
      exact builtFrom_edit_scanned inductionHypothesis change

/-- Lists that are kept for a timestep are those of a new list, refreshed from
the system that they were scanned from. -/
theorem BuiltFrom.exists_eq_refresh_renewed {presented : Nat → ParticleSystem α → Prop}
    (origin : list.BuiltFrom presented) (built : list.builtFor = some timestep) :
    ∃ system, presented timestep system ∧ list = list.renewed.refresh timestep system := by
  rcases origin timestep built with ⟨system, shown, scanned⟩
  refine ⟨system, shown, ?_⟩
  rw [refresh_renewed, build_eq_self built scanned]

/-- A refresh leaves a list with a history as it is exactly when the last edit
was a refresh for the same timestep and there is a list for every particle;
otherwise it rebuilds.  Either way there is then a list for every particle, and
the list is the one that a new list, with the present radii and storage mode,
becomes by a refresh from the system that was scanned last. -/
theorem refresh_foldl_edit (cutoff buffer : α) (mode : StorageMode) (history : List (Edit α))
    (timestep : Nat) (system : ParticleSystem α) :
    let start := create cutoff buffer mode
    let list := history.foldl edit start
    let after := list.refresh timestep system
    (after = list ↔ (∃ earlier, history.getLast? = some (.refresh timestep earlier)) ∧
      list.lists.size = system.size) ∧
    (after ≠ list → after = list.build timestep system) ∧
    after.lists.size = system.size ∧
    ∃ latest, (start.scans (history ++ [.refresh timestep system])).getLast? = some latest ∧
      after = after.renewed.refresh timestep latest := by
  intro start list after
  have forgotten : start.builtFor = none := rfl
  have origin := builtFrom_foldl_edit forgotten (history ++ [.refresh timestep system])
  rw [List.foldl_append] at origin
  constructor
  · rw [refresh_eq_self_iff]
    exact isCurrent_foldl_edit_iff forgotten history
  constructor
  · exact refresh_eq_build_of_ne
  constructor
  · exact size_lists_refresh list timestep system
  · exact origin.exists_eq_refresh_renewed (builtFor_refresh list timestep system)

open ParticleSystem (dimer floatCube)

/-- The two particles of a dimer are listed, the storage mode is changed, and
the dimer has come apart when it is listed again. -/
def parted : List (Edit Float) :=
  [.refresh 1 (dimer floatCube 1), .mode .full, .refresh 1 (dimer floatCube 3)]

/-- Within the timestep the particles may come together again without being
listed; for the next timestep they are. -/
theorem refresh_foldl_edit_parted :
    let start : NeighborList Float := create 2 0.5 .half
    let list := parted.foldl edit start
    list.refresh 1 (dimer floatCube 1) = list ∧ list.lists = #[#[], #[]] ∧
      list.refresh 2 (dimer floatCube 1) = list.build 2 (dimer floatCube 1) ∧
      (list.refresh 2 (dimer floatCube 1)).lists = #[#[1], #[0]] ∧
      ∃ latest,
        (start.scans (parted ++ [.refresh 1 (dimer floatCube 1)])).getLast? = some latest ∧
        list = list.renewed.refresh 1 latest := by
  intro start list
  have again := refresh_foldl_edit 2 0.5 .half parted 1 (dimer floatCube 1)
  have next := refresh_foldl_edit 2 0.5 .half parted 2 (dimer floatCube 1)
  have kept : list.refresh 1 (dimer floatCube 1) = list :=
    again.1.2 ⟨⟨_, rfl⟩, by decide +kernel⟩
  have rebuilds : list.refresh 2 (dimer floatCube 1) ≠ list := by
    intro same
    have built : (list.refresh 2 (dimer floatCube 1)).builtFor = some 1 := congrArg builtFor same
    rw [builtFor_refresh] at built
    cases built
  have latest := again.2.2.2
  rw [kept] at latest
  exact ⟨kept, by decide +kernel, next.2.1 rebuilds, by decide +kernel, latest⟩

end Nonbonded.NeighborList
