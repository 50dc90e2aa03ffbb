import Mathlib.Data.List.Induction
import Nonbonded.Proofs.ExternalField.Reduction
import Nonbonded.Proofs.ParticleSystem.Arrays
import Nonbonded.UniformField

/-!
# Uniform fields under edits

A field is changed by setting the strength of a type, moving its plane or
turning its normal.  An edit is made, or it is refused and the field left as it
is.  Whatever edits are tried, the field has as many types as it was created
for, and its normal is one that normalizing gave.

The energy of a system of known types is always found: a strength is looked up
for a type that the system has a name for, and the field has a strength for
each of these.
-/

namespace Nonbonded.UniformField

variable {α : Type} [Scalar α] {field : UniformField α} {n : Nat}

/-! ## Directions -/

section

variable {direction unit : Vec3 α}

theorem normalize_of_long (long : tolerance * tolerance < direction.normSq) :
    normalize direction = .ok (direction.divide (Scalar.sqrt direction.normSq)) :=
  if_pos long

theorem normalize_of_short (short : ¬tolerance * tolerance < direction.normSq) :
    normalize direction = .error (.invalidNormal direction) :=
  if_neg short

/-- A direction is normalized exactly when it is long enough, to itself over
its length. -/
theorem normalize_eq_ok_iff :
    normalize direction = .ok unit ↔ tolerance * tolerance < direction.normSq ∧
      direction.divide (Scalar.sqrt direction.normSq) = unit := by
  by_cases long : tolerance * tolerance < direction.normSq
  · rw [normalize_of_long long, and_iff_right long, Except.ok.injEq]
  · rw [normalize_of_short long]
    constructor
    · nofun
    · exact fun ⟨isLong, _⟩ => absurd isLong long

end

/-! ## Edits -/

/-- A change to a field. -/
inductive Edit (α : Type) where
  | strength (type : Nat) (value : α)
  | origin (value : Vec3 α)
  | normal (direction : Vec3 α)

/-- Try an edit. -/
def edit (field : UniformField α) : Edit α → Reply (Error α) Unit (UniformField α)
  | .strength type value => field.setStrength type value
  | .origin value => .done () (field.setOrigin value)
  | .normal direction => field.setNormal direction

/-- The field that a sequence of edits leaves, the refused ones among them. -/
def editAll (field : UniformField α) (edits : List (Edit α)) : UniformField α :=
  edits.foldl (fun field edit => (field.edit edit).state) field

/-- What an edit that is made does to a field. -/
inductive Edited (before : UniformField α) : Edit α → UniformField α → Prop
  | strength {type : Nat} (inRange : type < before.strengths.size) (value : α) :
      Edited before (.strength type value)
        { before with strengths := before.strengths.set type value }
  | origin (value : Vec3 α) : Edited before (.origin value) { before with origin := value }
  | normal {direction unit : Vec3 α} (normalized : normalize direction = .ok unit) :
      Edited before (.normal direction) { before with normal := unit }

/-- Why an edit is refused: the field does not have the type, or the direction
is too short. -/
inductive Unfit (field : UniformField α) : Edit α → Error α → Prop
  | strength {type : Nat} (outside : field.strengths.size ≤ type) (value : α) :
      Unfit field (.strength type value) (.unknownType type field.strengths.size)
  | normal {direction : Vec3 α} (short : ¬tolerance * tolerance < direction.normSq) :
      Unfit field (.normal direction) (.invalidNormal direction)

theorem setNormal_of_normalize {direction unit : Vec3 α}
    (normalized : normalize direction = .ok unit) (field : UniformField α) :
    field.setNormal direction = .done () { field with normal := unit } := by
  rw [setNormal, normalized]

/-- An edit is made, or it is refused for what is unfit and the field left as
it is. -/
theorem edit_cases (field : UniformField α) (edit : Edit α) :
    (∃ after, field.edit edit = .done () after ∧ Edited field edit after) ∨
      ∃ error, field.edit edit = .refuse error field ∧ Unfit field edit error := by
  cases edit with
  | strength type value =>
      by_cases inRange : type < field.strengths.size
      · exact .inl ⟨_, dif_pos inRange, .strength inRange value⟩
      · exact .inr ⟨_, dif_neg inRange, .strength (Nat.not_lt.1 inRange) value⟩
  | origin value => exact .inl ⟨_, rfl, .origin value⟩
  | normal direction =>
      by_cases long : tolerance * tolerance < direction.normSq
      · have normalized := normalize_of_long long
        exact .inl ⟨_, setNormal_of_normalize normalized field, .normal normalized⟩
      · refine .inr ⟨.invalidNormal direction, ?_, .normal long⟩
        rw [UniformField.edit, setNormal, normalize_of_short long]

/-- A field has as many types as it was created for, and its normal comes from
normalizing. -/
structure Kept (field : UniformField α) (n : Nat) : Prop where
  size_strengths : field.strengths.size = n
  normalized : ∃ direction, normalize direction = .ok field.normal

/-- A field is created with the normalized normal, the origin as it is given,
and no strengths. -/
theorem create_eq_ok_iff {origin direction : Vec3 α} :
    create n origin direction = .ok field ↔ normalize direction = .ok field.normal ∧
      field.origin = origin ∧ field.strengths = .replicate n 0 := by
  rw [create, bind_eq_ok_iff]
  constructor
  · rintro ⟨unit, normalized, finished⟩
    cases finished
    exact ⟨normalized, rfl, rfl⟩
  · rintro ⟨normalized, rfl, strengths⟩
    refine ⟨field.normal, normalized, ?_⟩
    rw [← strengths]
    rfl

theorem exists_create_of_normalize {direction unit : Vec3 α}
    (normalized : normalize direction = .ok unit) (n : Nat) (origin : Vec3 α) :
    ∃ start, create n origin direction = .ok start ∧ start.normal = unit ∧ start.origin = origin :=
  ⟨⟨origin, unit, .replicate n 0⟩, create_eq_ok_iff.2 ⟨normalized, rfl, rfl⟩, rfl, rfl⟩

theorem kept_of_create {origin direction : Vec3 α}
    (created : create n origin direction = .ok field) : field.Kept n := by
  rcases create_eq_ok_iff.1 created with ⟨normalized, -, strengths⟩
  refine ⟨?_, direction, normalized⟩
  rw [strengths, Array.size_replicate]

theorem Kept.edit (kept : field.Kept n) (edit : Edit α) : (field.edit edit).state.Kept n := by
  rcases edit_cases field edit with ⟨after, made, edited⟩ | ⟨error, refused, -⟩
  · rw [made, Reply.state_done]
    cases edited with
    | strength inRange value =>
        exact ⟨(Array.size_set inRange).trans kept.size_strengths, kept.normalized⟩
    | origin value => exact ⟨kept.size_strengths, kept.normalized⟩
    | normal normalized => exact ⟨kept.size_strengths, _, normalized⟩
  · rw [refused, Reply.state_refuse]
    exact kept

theorem Kept.editAll (kept : field.Kept n) (edits : List (Edit α)) :
    (field.editAll edits).Kept n := by
  induction edits generalizing field with
  | nil => exact kept
  | cons edit rest inductionHypothesis => exact inductionHypothesis (kept.edit edit)

/-! ## Energies -/

/-- The strength of a type, zero for a type that the field does not have. -/
def strengthOf (field : UniformField α) (type : Nat) : α :=
  field.strengths[type]?.getD 0

/-- The distance of a place from the plane, counted along the normal. -/
def height (field : UniformField α) (here : Vec3 α) : α :=
  field.normal.dot (here - field.origin)

theorem energyAt_of_lt {type : Nat} (inRange : type < field.strengths.size) (here : Vec3 α) :
    field.energyAt type here = .ok (field.strengthOf type * field.height here) := by
  rw [energyAt, entryAt_of_lt inRange, strengthOf, Array.getElem?_eq_getElem inRange]
  rfl

variable {system : ParticleSystem α}

/-- The energy of a particle whose type is known. -/
theorem energyOf_eq (known : system.typeCount ≤ field.strengths.size) (trial : Bool)
    (particle : Fin system.size) :
    field.toExternalField.energyOf system trial particle =
      .ok (field.strengthOf (system.typeAt particle) *
        field.height (system.placeOf particle)) := by
  have inRange : system.typeAt particle < field.strengths.size :=
    Nat.lt_of_lt_of_le (system.typeAt_lt_typeCount particle) known
  rcases ParticleSystem.exists_charge particle.isLt with ⟨charge, read⟩
  rw [ExternalField.energyOf, system.typeOf_eq_typeAt, system.position_eq_placeOf, read]
  exact energyAt_of_lt inRange (system.placeOf particle)

/-- A total is found or refused, and no strength is looked up past the end. -/
theorem exists_totalEnergy (field : UniformField α) (system : ParticleSystem α) (reduce : α → α)
    (trial : Bool) :
    ∃ answer, field.toExternalField.totalEnergy system reduce trial = .ok answer := by
  rcases Nat.lt_or_ge field.strengths.size system.typeCount with unknown | known
  · exact ⟨_, ExternalField.totalEnergy_of_unknown unknown reduce trial⟩
  · have each : ∀ particle ∈ List.range system.size, ∃ energy,
        field.toExternalField.energyOf system trial particle = .ok energy := fun particle member =>
      ⟨_, energyOf_eq known trial ⟨particle, List.mem_range.1 member⟩⟩
    rcases exists_mapM_iff.2 each with ⟨energies, found⟩
    rw [ExternalField.totalEnergy_of_known known, found]
    exact ⟨_, rfl⟩

/-! ## Setting strengths -/

theorem strength_eq_ok {type : Nat} (inRange : type < field.strengths.size) :
    field.strength type = .ok (field.strengthOf type) := by
  rw [strength, strengthOf, Array.getElem?_eq_getElem inRange]
  rfl

theorem strengthOf_set {type : Nat} (inRange : type < field.strengths.size) (value : α)
    (other : Nat) :
    ({ field with strengths := field.strengths.set type value } : UniformField α).strengthOf
      other = if type = other then value else field.strengthOf other := by
  rw [strengthOf, strengthOf, Array.getElem?_set]
  split <;> rfl

/-- Two fields have the same plane and strengths for the same types. -/
structure SamePlane (field other : UniformField α) : Prop where
  origin : other.origin = field.origin
  normal : other.normal = field.normal
  size_strengths : other.strengths.size = field.strengths.size

/-- The field that setting strengths of types leaves, in this order; types it
does not have are refused. -/
def setAll (field : UniformField α) (values : List (Nat × α)) : UniformField α :=
  field.editAll (values.map fun value => .strength value.1 value.2)

theorem setAll_append (field : UniformField α) (values more : List (Nat × α)) :
    field.setAll (values ++ more) = (field.setAll values).setAll more := by
  rw [setAll, List.map_append, editAll, List.foldl_append]
  rfl

theorem samePlane_setAll (field : UniformField α) (values : List (Nat × α)) :
    field.SamePlane (field.setAll values) := by
  induction values using List.reverseRecOn with
  | nil => exact ⟨rfl, rfl, rfl⟩
  | append_singleton earlier value inductionHypothesis =>
      rw [setAll_append]
      generalize field.setAll earlier = between at inductionHypothesis ⊢
      change field.SamePlane (between.edit (.strength value.1 value.2)).state
      rcases edit_cases between (.strength value.1 value.2) with
        ⟨after, made, edited⟩ | ⟨error, refused, -⟩
      · rw [made, Reply.state_done]
        cases edited with
        | strength inRange _ =>
            exact ⟨inductionHypothesis.origin, inductionHypothesis.normal,
              (Array.size_set inRange).trans inductionHypothesis.size_strengths⟩
      · rw [refused, Reply.state_refuse]
        exact inductionHypothesis

/-- Set the strengths of the first types. -/
def setFirst (field : UniformField α) (count : Nat) (values : Nat → α) : UniformField α :=
  field.setAll ((List.range count).map fun type => (type, values type))

theorem strengthOf_setFirst (field : UniformField α) (values : Nat → α) {count : Nat}
    (inRange : count ≤ field.strengths.size) :
    ∀ type < count, (field.setFirst count values).strengthOf type = values type := by
  induction count with
  | zero => nofun
  | succ count inductionHypothesis =>
      have earlier := inductionHypothesis (Nat.le_of_succ_le inRange)
      have next : count < (field.setFirst count values).strengths.size := by
        rw [setFirst, (samePlane_setAll field _).size_strengths]
        exact inRange
      have last : field.setFirst (count + 1) values =
          ((field.setFirst count values).setStrength count (values count)).state := by
        rw [setFirst, List.range_succ, List.map_append, setAll_append]
        rfl
      intro type below
      rw [last, setStrength, dif_pos next, Reply.state_done, strengthOf_set next]
      split
      · next same => rw [same]
      · next other => exact earlier type (by omega)

end Nonbonded.UniformField
