import Mathlib.Data.List.Forall2
import Mathlib.Data.List.FinRange
import Nonbonded.ParticleSystem

/-!
# Particles shared out over domains

A domain of a system is a system of its own: some of the particles in some
order, each with its type and charge, in the same box and with the same names.
Domains share out a system when every particle is in exactly one of them, and
in it once.  A domain may be empty, and nothing is said about diameters.

Every way to list the particles of a system in rows is realized by domains.
-/

namespace Nonbonded.ParticleSystem

variable {α : Type} [Scalar α]

/-- The particles of a domain are the given members of a system, in this
order. -/
structure IsDomain (system domain : ParticleSystem α) (members : List Nat) : Prop where
  box : domain.box = system.box
  typeNames : domain.typeNames = system.typeNames
  size : domain.size = members.length
  position : ∀ place member, members[place]? = some member →
    domain.position place = system.position member
  typeOf : ∀ place member, members[place]? = some member →
    domain.typeOf place = system.typeOf member
  charge : ∀ place member, members[place]? = some member →
    domain.charge place = system.charge member

/-- Every particle of a system is in one of the domains, and in no other. -/
def SharedOut (system : ParticleSystem α) (domains : List (ParticleSystem α)) : Prop :=
  ∃ members : List (List Nat), List.Forall₂ system.IsDomain domains members ∧
    members.flatten.Perm (List.range system.size)

theorem IsDomain.typeCount {system domain : ParticleSystem α} {members : List Nat}
    (isDomain : system.IsDomain domain members) : domain.typeCount = system.typeCount := by
  rw [ParticleSystem.typeCount, ParticleSystem.typeCount, isDomain.typeNames]

theorem SharedOut.typeCount {system domain : ParticleSystem α} {domains : List (ParticleSystem α)}
    (shared : system.SharedOut domains) (member : domain ∈ domains) :
    domain.typeCount = system.typeCount := by
  rcases shared with ⟨members, areDomains, -⟩
  rcases List.mem_iff_getElem.1 member with ⟨k, inRange, rfl⟩
  exact (areDomains.get inRange (areDomains.length_eq ▸ inRange)).typeCount

/-- A system is the only domain of itself, with its particles in their
order. -/
theorem isDomain_self (system : ParticleSystem α) :
    system.IsDomain system (List.range system.size) := by
  have same : ∀ {place member : Nat}, (List.range system.size)[place]? = some member →
      place = member := by
    intro place member listed
    rcases List.getElem?_eq_some_iff.1 listed with ⟨inRange, rfl⟩
    exact (List.getElem_range inRange).symm
  constructor
  · rfl
  · rfl
  · exact List.length_range.symm
  · intro place member listed
    rw [same listed]
  · intro place member listed
    rw [same listed]
  · intro place member listed
    rw [same listed]

/-! ## Domains for given members -/

section Select

variable {β : Type} {size : Nat}

/-- The entries at some places. -/
def entriesAt (values : Array β) (enough : size ≤ values.size) (members : List (Fin size)) :
    Array β :=
  (members.map fun member => values[Fin.castLE enough member]).toArray

theorem size_entriesAt {values : Array β} (enough : size ≤ values.size)
    (members : List (Fin size)) : (entriesAt values enough members).size = members.length := by
  rw [entriesAt, List.size_toArray, List.length_map]

theorem mem_of_mem_entriesAt {values : Array β} {enough : size ≤ values.size}
    {members : List (Fin size)} {value : β} (member : value ∈ entriesAt values enough members) :
    value ∈ values := by
  rcases List.mem_map.1 (List.mem_toArray.1 member) with ⟨place, -, rfl⟩
  exact Array.getElem_mem _

theorem entryAt_entriesAt {values : Array β} (enough : size ≤ values.size)
    {members : List (Fin size)} {place : Nat} {member : Fin size}
    (listed : members[place]? = some member) :
    entryAt (entriesAt values enough members) place = entryAt values member := by
  have inRange : (member : Nat) < values.size := member.isLt.trans_le enough
  rw [entryAt_of_lt inRange, entryAt_eq_ok_iff, entriesAt, List.getElem?_toArray,
    List.getElem?_map, listed]
  rfl

end Select

/-- The domain of the given particles of a system, which keep all they have. -/
def select (system : ParticleSystem α) (members : List (Fin system.size)) : ParticleSystem α where
  box := system.box
  typeNames := system.typeNames
  positions := entriesAt system.positions le_rfl members
  types := entriesAt system.types system.size_types.ge members
  diameters := system.diameters.pmap (fun values sized => entriesAt values sized.ge members)
    system.size_diameters
  charges := system.charges.pmap (fun values sized => entriesAt values sized.ge members)
    system.size_charges
  typeNames_pos := system.typeNames_pos
  size_types := (size_entriesAt system.size_types.ge members).trans
    (size_entriesAt le_rfl members).symm
  type_lt type member := system.type_lt type (mem_of_mem_entriesAt member)
  size_diameters values member := by
    rcases Option.pmap_eq_some_iff.1 member with ⟨given, sized, -, rfl⟩
    exact (size_entriesAt sized.ge members).trans (size_entriesAt le_rfl members).symm
  size_charges values member := by
    rcases Option.pmap_eq_some_iff.1 member with ⟨given, sized, -, rfl⟩
    exact (size_entriesAt sized.ge members).trans (size_entriesAt le_rfl members).symm

theorem charge_select (system : ParticleSystem α) {members : List (Fin system.size)} {place : Nat}
    {member : Fin system.size} (listed : members[place]? = some member) :
    (system.select members).charge place = system.charge member := by
  rcases system with ⟨_, _, _, _, _, _ | values, _, _, _, _, sized⟩
  · rfl
  · exact entryAt_entriesAt (sized values rfl).ge listed

theorem isDomain_select (system : ParticleSystem α) (members : List (Fin system.size)) :
    system.IsDomain (system.select members) (members.map Fin.val) := by
  have lookedUp : ∀ {place number : Nat}, (members.map Fin.val)[place]? = some number →
      ∃ member : Fin system.size, members[place]? = some member ∧ (member : Nat) = number := by
    intro place number found
    rw [List.getElem?_map] at found
    exact Option.map_eq_some_iff.1 found
  constructor
  · rfl
  · rfl
  · rw [List.length_map]
    exact size_entriesAt le_rfl members
  · intro place number found
    rcases lookedUp found with ⟨member, listed, rfl⟩
    exact entryAt_entriesAt le_rfl listed
  · intro place number found
    rcases lookedUp found with ⟨member, listed, rfl⟩
    exact entryAt_entriesAt system.size_types.ge listed
  · intro place number found
    rcases lookedUp found with ⟨member, listed, rfl⟩
    exact charge_select system listed

/-- Rows in which every particle is listed once are the members of domains that
share out the system. -/
theorem sharedOut_select (system : ParticleSystem α) {rows : List (List (Fin system.size))}
    (once : rows.flatten.Perm (List.finRange system.size)) :
    system.SharedOut (rows.map system.select) := by
  refine ⟨rows.map (·.map Fin.val), ?_, ?_⟩
  · rw [List.forall₂_map_left_iff, List.forall₂_map_right_iff, List.forall₂_same]
    exact fun members _ => isDomain_select system members
  · rw [← List.map_flatten, ← List.map_coe_finRange_eq_range]
    exact once.map Fin.val

end Nonbonded.ParticleSystem
