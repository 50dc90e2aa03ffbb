import Mathlib.Data.List.Induction
import Nonbonded.ParticleSystem

/-!
# Arrays that stay in step

Names, positions and types describe a system when there is a name, there are as
many types as positions, and every type has a name.  Otherwise no system is
created, and the error tells the first thing that is wrong.

Positions, diameters and charges are replaced as whole arrays.  A replacement
is accepted exactly when it is as long as the system, and a refused one leaves
the system as it is.  After any number of replacements every array holds the
last one of its kind that was accepted, and all arrays are as long as at the
beginning.
-/

namespace Nonbonded.ParticleSystem

variable {α : Type}

/-! ## Creation -/

section Creation

/-- Names, positions and types that describe a system. -/
structure Describes (typeNames : Array String) (positions : Array (Vec3 α)) (types : Array Nat) :
    Prop where
  named : 0 < typeNames.size
  sameSize : types.size = positions.size
  type_lt : ∀ type ∈ types, type < typeNames.size

/-- The first thing that keeps names, positions and types from describing a
system. -/
inductive FirstDefect (typeNames : Array String) (positions : Array (Vec3 α)) (types : Array Nat) :
    SystemError → Prop
  | noTypes (unnamed : typeNames.size = 0) : FirstDefect typeNames positions types .noTypes
  | lengthMismatch (named : 0 < typeNames.size) (different : types.size ≠ positions.size) :
      FirstDefect typeNames positions types (.lengthMismatch .types positions.size types.size)
  | typeOutOfRange {index type : Nat} (named : 0 < typeNames.size)
      (sameSize : types.size = positions.size) (found : types[index]? = some type)
      (outside : typeNames.size ≤ type)
      (least : ∀ earlier < index, ∀ other ∈ types[earlier]?, other < typeNames.size) :
      FirstDefect typeNames positions types (.typeOutOfRange index type typeNames.size)

variable {typeNames : Array String} {positions : Array (Vec3 α)} {types : Array Nat}

theorem find?_outside_eq_some_iff {bound index type : Nat} :
    types.zipIdx.find? (bound ≤ ·.1) = some (type, index) ↔
      types[index]? = some type ∧ bound ≤ type ∧
        ∀ earlier < index, ∀ other ∈ types[earlier]?, other < bound := by
  simp only [Array.find?_eq_some_iff_getElem, Array.getElem_zipIdx, Array.size_zipIdx,
    decide_eq_true_eq, Prod.mk.injEq, Nat.zero_add, Bool.not_eq_true', decide_eq_false_iff_not,
    Nat.not_le]
  constructor
  · rintro ⟨outside, place, inRange, ⟨rfl, rfl⟩, least⟩
    refine ⟨Array.getElem?_eq_getElem inRange, outside, fun earlier below other found => ?_⟩
    rcases Array.getElem?_eq_some_iff.1 found with ⟨listed, rfl⟩
    exact least earlier below
  · rintro ⟨found, outside, least⟩
    rcases Array.getElem?_eq_some_iff.1 found with ⟨inRange, rfl⟩
    refine ⟨outside, index, inRange, ⟨rfl, rfl⟩, fun earlier below => ?_⟩
    exact least earlier below _ (Array.getElem?_eq_getElem (Nat.lt_trans below inRange))

/-- Arrays describe a system or have a first defect. -/
theorem describes_or_firstDefect (typeNames : Array String) (positions : Array (Vec3 α))
    (types : Array Nat) :
    Describes typeNames positions types ∨
      ∃ error, FirstDefect typeNames positions types error := by
  by_cases named : 0 < typeNames.size
  · by_cases sameSize : types.size = positions.size
    · cases first : types.zipIdx.find? (typeNames.size ≤ ·.1) with
      | none =>
          refine .inl ⟨named, sameSize, fun type member => ?_⟩
          rcases Array.getElem_of_mem member with ⟨index, inRange, rfl⟩
          have listed : (types[index], index) ∈ types.zipIdx := by
            simp [Array.mem_zipIdx_iff_getElem?]
          simpa using Array.find?_eq_none.1 first _ listed
      | some found =>
          rcases find?_outside_eq_some_iff.1 first with ⟨listed, outside, least⟩
          exact .inr ⟨_, .typeOutOfRange named sameSize listed outside least⟩
    · exact .inr ⟨_, .lengthMismatch named sameSize⟩
  · exact .inr ⟨_, .noTypes (Nat.eq_zero_of_not_pos named)⟩

variable [Scalar α] {box : Box α}

/-- A system as it is created from arrays, with neither diameters nor
charges. -/
structure IsCreatedFrom (system : ParticleSystem α) (box : Box α) (typeNames : Array String)
    (positions : Array (Vec3 α)) (types : Array Nat) : Prop where
  box : system.box = box
  typeNames : system.typeNames = typeNames
  positions : system.positions = positions
  types : system.types = types
  diameters : system.diameters = none
  charges : system.charges = none

theorem exists_create_of_describes (describes : Describes typeNames positions types)
    (box : Box α) :
    ∃ system, create box typeNames positions types = .ok system ∧
      system.IsCreatedFrom box typeNames positions types := by
  rw [create, dif_pos describes.named, dif_pos describes.sameSize]
  split
  · next type index first =>
      rcases find?_outside_eq_some_iff.1 first with ⟨found, outside, -⟩
      have inside := describes.type_lt type (Array.mem_of_getElem? found)
      omega
  · exact ⟨_, rfl, rfl, rfl, rfl, rfl, rfl, rfl⟩

theorem create_of_firstDefect {error : SystemError}
    (defect : FirstDefect typeNames positions types error) (box : Box α) :
    create box typeNames positions types = .error error := by
  cases defect with
  | noTypes unnamed => rw [create, dif_neg (by omega)]
  | lengthMismatch named different => rw [create, dif_pos named, dif_neg different]
  | typeOutOfRange named sameSize found outside least =>
      rw [create, dif_pos named, dif_pos sameSize]
      have first := find?_outside_eq_some_iff.2 ⟨found, outside, least⟩
      split
      · next found =>
          cases first.symm.trans found
          rfl
      · next absent => cases first.symm.trans absent

theorem exists_create_iff :
    (∃ system, create box typeNames positions types = .ok system) ↔
      Describes typeNames positions types := by
  constructor
  · rintro ⟨system, created⟩
    rcases describes_or_firstDefect typeNames positions types with describes | ⟨error, defect⟩
    · exact describes
    · cases created.symm.trans (create_of_firstDefect defect box)
  · intro describes
    rcases exists_create_of_describes describes box with ⟨system, created, -⟩
    exact ⟨system, created⟩

theorem create_eq_error_iff {error : SystemError} :
    create box typeNames positions types = .error error ↔
      FirstDefect typeNames positions types error := by
  constructor
  · intro refused
    rcases describes_or_firstDefect typeNames positions types with describes | ⟨other, defect⟩
    · rcases exists_create_of_describes describes box with ⟨system, created, -⟩
      cases refused.symm.trans created
    · cases refused.symm.trans (create_of_firstDefect defect box)
      exact defect
  · exact fun defect => create_of_firstDefect defect box

theorem isCreatedFrom_of_create {system : ParticleSystem α}
    (created : create box typeNames positions types = .ok system) :
    system.IsCreatedFrom box typeNames positions types := by
  rcases exists_create_of_describes (exists_create_iff.1 ⟨system, created⟩) box with
    ⟨other, same, isCreated⟩
  cases created.symm.trans same
  exact isCreated

end Creation

/-! ## Replacements -/

/-- Values that replace one of the arrays of a system. -/
inductive Replacement (α : Type) where
  | positions (values : Array (Vec3 α))
  | diameters (values : Array α)
  | charges (values : Array α)

namespace Replacement

/-- Which array is replaced. -/
def array : Replacement α → ParticleArray
  | positions _ => .positions
  | diameters _ => .diameters
  | charges _ => .charges

/-- The number of values that are given. -/
def size : Replacement α → Nat
  | positions values => values.size
  | diameters values | charges values => values.size

/-- The positions that are given, if these are replaced. -/
def positions? : Replacement α → Option (Array (Vec3 α))
  | positions values => some values
  | diameters _ | charges _ => none

/-- The diameters that are given, if these are replaced. -/
def diameters? : Replacement α → Option (Array α)
  | diameters values => some values
  | positions _ | charges _ => none

/-- The charges that are given, if these are replaced. -/
def charges? : Replacement α → Option (Array α)
  | charges values => some values
  | positions _ | diameters _ => none

end Replacement

/-- The last array of a kind among the replacements of a size. -/
def lastFitting {β : Type} (read : Replacement α → Option (Array β)) (size : Nat)
    (replacements : List (Replacement α)) : Option (Array β) :=
  ((replacements.filter (·.size = size)).filterMap read).getLast?

theorem lastFitting_append_of_eq {β : Type} {read : Replacement α → Option (Array β)} {size : Nat}
    {replacement : Replacement α} (fits : replacement.size = size)
    (replacements : List (Replacement α)) :
    lastFitting read size (replacements ++ [replacement]) =
      (read replacement).or (lastFitting read size replacements) := by
  rw [lastFitting, List.filter_append, List.filterMap_append, List.getLast?_append]
  cases given : read replacement <;> simp [fits, given, lastFitting]

theorem lastFitting_append_of_ne {β : Type} {read : Replacement α → Option (Array β)} {size : Nat}
    {replacement : Replacement α} (unfit : replacement.size ≠ size)
    (replacements : List (Replacement α)) :
    lastFitting read size (replacements ++ [replacement]) =
      lastFitting read size replacements := by
  simp [lastFitting, unfit]

variable [Scalar α]

/-- Ask a system for a replacement. -/
def replace (system : ParticleSystem α) :
    Replacement α → Reply SystemError Unit (ParticleSystem α)
  | .positions values => system.setPositions values
  | .diameters values => system.withDiameters values
  | .charges values => system.withCharges values

/-- The system that a sequence of replacements leaves, the refused ones among
them. -/
def replaceAll (system : ParticleSystem α) (replacements : List (Replacement α)) :
    ParticleSystem α :=
  replacements.foldl (fun system replacement => (system.replace replacement).state) system

/-- A system with one of its arrays replaced. -/
structure ReplacedBy (before after : ParticleSystem α) (replacement : Replacement α) : Prop where
  box : after.box = before.box
  typeNames : after.typeNames = before.typeNames
  types : after.types = before.types
  positions : after.positions = replacement.positions?.getD before.positions
  diameters : after.diameters = replacement.diameters?.or before.diameters
  charges : after.charges = replacement.charges?.or before.charges

/-- A replacement is accepted when it is as long as the system; otherwise it is
refused and the system left as it is. -/
theorem replace_cases (system : ParticleSystem α) (replacement : Replacement α) :
    (replacement.size = system.size ∧ ∃ after, system.replace replacement = .done () after ∧
      system.ReplacedBy after replacement) ∨
    (replacement.size ≠ system.size ∧ system.replace replacement =
      .refuse (.lengthMismatch replacement.array system.size replacement.size) system) := by
  by_cases fits : replacement.size = system.size
  · refine .inl ⟨fits, ?_⟩
    cases replacement with
    | positions values => exact ⟨_, dif_pos fits, rfl, rfl, rfl, rfl, rfl, rfl⟩
    | diameters values => exact ⟨_, dif_pos fits, rfl, rfl, rfl, rfl, rfl, rfl⟩
    | charges values => exact ⟨_, dif_pos fits, rfl, rfl, rfl, rfl, rfl, rfl⟩
  · refine .inr ⟨fits, ?_⟩
    cases replacement with
    | positions values => exact dif_neg fits
    | diameters values => exact dif_neg fits
    | charges values => exact dif_neg fits

theorem replaceAll_append_singleton (system : ParticleSystem α)
    (replacements : List (Replacement α)) (replacement : Replacement α) :
    system.replaceAll (replacements ++ [replacement]) =
      ((system.replaceAll replacements).replace replacement).state := by
  rw [replaceAll, List.foldl_append]
  rfl

/-- Nothing but positions, diameters and charges differs, and each of these is
the last array of its kind among the replacements that are as long as the
system. -/
structure HoldsLast (start after : ParticleSystem α) (replacements : List (Replacement α)) :
    Prop where
  box : after.box = start.box
  typeNames : after.typeNames = start.typeNames
  types : after.types = start.types
  positions : after.positions =
    (lastFitting Replacement.positions? start.size replacements).getD start.positions
  diameters : after.diameters =
    (lastFitting Replacement.diameters? start.size replacements).or start.diameters
  charges : after.charges =
    (lastFitting Replacement.charges? start.size replacements).or start.charges

theorem HoldsLast.size {start after : ParticleSystem α} {replacements : List (Replacement α)}
    (holds : start.HoldsLast after replacements) : after.size = start.size := by
  rw [ParticleSystem.size, ParticleSystem.size, ← after.size_types, ← start.size_types,
    holds.types]

theorem HoldsLast.replace {start after : ParticleSystem α} {replacements : List (Replacement α)}
    (holds : start.HoldsLast after replacements) (replacement : Replacement α) :
    start.HoldsLast (after.replace replacement).state (replacements ++ [replacement]) := by
  rcases replace_cases after replacement with ⟨fits, final, accepted, replaced⟩ | ⟨unfit, refused⟩
  · rw [holds.size] at fits
    rw [accepted, Reply.state_done]
    refine ⟨replaced.box.trans holds.box, replaced.typeNames.trans holds.typeNames,
      replaced.types.trans holds.types, ?_, ?_, ?_⟩
    · rw [replaced.positions, holds.positions, lastFitting_append_of_eq fits, Option.getD_or]
    · rw [replaced.diameters, holds.diameters, lastFitting_append_of_eq fits, Option.or_assoc]
    · rw [replaced.charges, holds.charges, lastFitting_append_of_eq fits, Option.or_assoc]
  · rw [holds.size] at unfit
    rw [refused, Reply.state_refuse]
    refine ⟨holds.box, holds.typeNames, holds.types, ?_, ?_, ?_⟩
    · rw [holds.positions, lastFitting_append_of_ne unfit]
    · rw [holds.diameters, lastFitting_append_of_ne unfit]
    · rw [holds.charges, lastFitting_append_of_ne unfit]

/-- After any replacements every array holds the last one of its kind that
fits. -/
theorem holdsLast_replaceAll (start : ParticleSystem α) (replacements : List (Replacement α)) :
    start.HoldsLast (start.replaceAll replacements) replacements := by
  induction replacements using List.reverseRecOn with
  | nil => exact ⟨rfl, rfl, rfl, rfl, rfl, rfl⟩
  | append_singleton earlier replacement inductionHypothesis =>
      rw [replaceAll_append_singleton]
      exact inductionHypothesis.replace replacement

/-! ## Reading -/

/-- Where a particle of the system is. -/
def placeOf (system : ParticleSystem α) (i : Fin system.size) : Vec3 α :=
  have inRange : (i : Nat) < system.positions.size := i.isLt
  system.positions[(i : Nat)]

theorem position_eq_placeOf (system : ParticleSystem α) (i : Fin system.size) :
    system.position i = .ok (system.placeOf i) :=
  entryAt_of_lt i.isLt

theorem placeOf_mem_positions (system : ParticleSystem α) (i : Fin system.size) :
    system.placeOf i ∈ system.positions :=
  Array.getElem_mem i.isLt

/-- The type of a particle of the system. -/
def typeAt (system : ParticleSystem α) (i : Fin system.size) : Nat :=
  have inRange : (i : Nat) < system.types.size := system.size_types ▸ i.isLt
  system.types[(i : Nat)]

theorem typeOf_eq_typeAt (system : ParticleSystem α) (i : Fin system.size) :
    system.typeOf i = .ok (system.typeAt i) :=
  entryAt_of_lt (system.size_types ▸ i.isLt)

theorem typeAt_lt_typeCount (system : ParticleSystem α) (i : Fin system.size) :
    system.typeAt i < system.typeCount :=
  system.type_lt _ (Array.getElem_mem _)

/-- A particle can be read, and reads as it is stored; diameters and charges
that were never given read as zero. -/
structure Reads (system : ParticleSystem α) (particle : Nat) : Prop where
  position : ∃ here, system.position particle = .ok here ∧
    system.positions[particle]? = some here
  typeOf : ∃ type < system.typeNames.size, system.typeOf particle = .ok type ∧
    system.types[particle]? = some type
  diameter : ∃ value, system.diameter particle = .ok value ∧
    (system.diameters = none → value = 0) ∧
    ∀ values ∈ system.diameters, values[particle]? = some value
  charge : ∃ value, system.charge particle = .ok value ∧ (system.charges = none → value = 0) ∧
    ∀ values ∈ system.charges, values[particle]? = some value

theorem reads_of_lt {system : ParticleSystem α} {particle : Nat}
    (inRange : particle < system.size) : system.Reads particle where
  position := by
    rcases exists_position inRange with ⟨here, read⟩
    exact ⟨here, read, entryAt_eq_ok_iff.1 read⟩
  typeOf := by
    rcases exists_typeOf inRange with ⟨type, inside, read⟩
    exact ⟨type, inside, read, entryAt_eq_ok_iff.1 read⟩
  diameter := by
    rcases exists_diameter inRange with ⟨value, read⟩
    refine ⟨value, read, fun absent => ?_, fun values given => ?_⟩
    · rw [diameter, absent] at read
      exact (Except.ok.inj read).symm
    · rw [diameter, given] at read
      exact entryAt_eq_ok_iff.1 read
  charge := by
    rcases exists_charge inRange with ⟨value, read⟩
    refine ⟨value, read, fun absent => ?_, fun values given => ?_⟩
    · rw [charge, absent] at read
      exact (Except.ok.inj read).symm
    · rw [charge, given] at read
      exact entryAt_eq_ok_iff.1 read

/-! ## Any sequence of replacements -/

/-- The arrays of a system have a common size, and the size alone decides which
replacements are accepted and which particles can be read. -/
structure InStep (system : ParticleSystem α) (size : Nat) : Prop where
  positions : system.positions.size = size
  types : system.types.size = size
  diameters : ∀ values ∈ system.diameters, values.size = size
  charges : ∀ values ∈ system.charges, values.size = size
  type_lt : ∀ type ∈ system.types, type < system.typeNames.size
  decided : ∀ replacement : Replacement α,
    (replacement.size = size ∧ ∃ after, system.replace replacement = .done () after) ∨
    (replacement.size ≠ size ∧ system.replace replacement =
      .refuse (.lengthMismatch replacement.array size replacement.size) system)
  reads : ∀ particle < size, system.Reads particle

theorem inStep_size (system : ParticleSystem α) : system.InStep system.size where
  positions := rfl
  types := system.size_types
  diameters := system.size_diameters
  charges := system.size_charges
  type_lt := system.type_lt
  decided replacement := by
    refine (replace_cases system replacement).imp_left ?_
    rintro ⟨fits, after, accepted, -⟩
    exact ⟨fits, after, accepted⟩
  reads _ inRange := reads_of_lt inRange

/-- A system is created exactly when names, positions and types describe one,
and otherwise the error is their first defect.  Whatever replacements a created
system is asked for, its box, names and types are those it was created from,
each of its other arrays is the last one that was as long as the positions, and
a refused replacement leaves the system as it is.  So all arrays stay that
long, every type has a name, and every particle can be read. -/
theorem create_and_replaceAll_inStep (box : Box α) (typeNames : Array String)
    (positions : Array (Vec3 α)) (types : Array Nat) :
    ((∃ start, create box typeNames positions types = .ok start) ↔
      Describes typeNames positions types) ∧
    (∀ error, create box typeNames positions types = .error error ↔
      FirstDefect typeNames positions types error) ∧
    ∀ start, create box typeNames positions types = .ok start →
      start.IsCreatedFrom box typeNames positions types ∧
      ∀ replacements, start.HoldsLast (start.replaceAll replacements) replacements ∧
        (start.replaceAll replacements).InStep positions.size := by
  refine ⟨exists_create_iff, fun error => create_eq_error_iff, fun start created => ?_⟩
  have isCreated := isCreatedFrom_of_create created
  refine ⟨isCreated, fun replacements => ?_⟩
  have holds := holdsLast_replaceAll start replacements
  have size : (start.replaceAll replacements).size = positions.size := by
    rw [holds.size, ParticleSystem.size, isCreated.positions]
  exact ⟨holds, size ▸ inStep_size _⟩

/-! ## Dimers and trimers -/

/-- Two particles of one type, the first at the origin and the second on the
first axis. -/
def dimer (box : Box α) (distance : α) : ParticleSystem α where
  box := box
  typeNames := #["A"]
  positions := #[.zero, ⟨distance, 0, 0⟩]
  types := #[0, 0]
  diameters := none
  charges := none
  typeNames_pos := by decide
  size_types := rfl
  type_lt := by decide
  size_diameters := by simp
  size_charges := by simp

/-- Three particles of one type in a row along the first axis, the first at the
origin. -/
def trimer (box : Box α) (distance : α) : ParticleSystem α where
  box := box
  typeNames := #["A"]
  positions := #[.zero, ⟨distance, 0, 0⟩, ⟨distance + distance, 0, 0⟩]
  types := #[0, 0, 0]
  diameters := none
  charges := none
  typeNames_pos := by decide
  size_types := rfl
  type_lt := by decide
  size_diameters := by simp
  size_charges := by simp

/-- The cube from -5 to 5 on every axis, in machine numbers. -/
def floatCube : Box Float :=
  ⟨⟨-5, -5, -5⟩, ⟨5, 5, 5⟩, by decide⟩

/-- Replacements for two particles, some of them too long or too short. -/
def mixedReplacements : List (Replacement Float) :=
  [.charges #[1], .diameters #[3, 4], .charges #[5, 6], .positions #[], .diameters #[7, 8],
    .diameters #[7, 8, 9]]

theorem create_and_replaceAll_inStep_pair :
    Describes #["A", "B"] (#[.zero, ⟨1, 0, 0⟩] : Array (Vec3 Float)) #[1, 0] ∧
      ∃ start, create floatCube #["A", "B"] #[.zero, ⟨1, 0, 0⟩] #[1, 0] = .ok start ∧
        (start.replaceAll mixedReplacements).positions = #[.zero, ⟨1, 0, 0⟩] ∧
        (start.replaceAll mixedReplacements).diameters = some #[7, 8] ∧
        (start.replaceAll mixedReplacements).charges = some #[5, 6] ∧
        (start.replaceAll mixedReplacements).Reads 1 := by
  have describes : Describes #["A", "B"] (#[.zero, ⟨1, 0, 0⟩] : Array (Vec3 Float)) #[1, 0] :=
    ⟨by decide, rfl, by decide⟩
  have verdict := create_and_replaceAll_inStep floatCube #["A", "B"] #[.zero, ⟨1, 0, 0⟩] #[1, 0]
  rcases verdict.1.2 describes with ⟨start, created⟩
  rcases verdict.2.2 start created with ⟨isCreated, replaced⟩
  rcases replaced mixedReplacements with ⟨holds, inStep⟩
  have size : start.size = 2 := by
    rw [ParticleSystem.size, isCreated.positions]
    rfl
  refine ⟨describes, start, created, ?_, ?_, ?_, inStep.reads 1 (by decide)⟩
  · rw [holds.positions, size, isCreated.positions]
    rfl
  · rw [holds.diameters, size]
    rfl
  · rw [holds.charges, size]
    rfl

end Nonbonded.ParticleSystem
