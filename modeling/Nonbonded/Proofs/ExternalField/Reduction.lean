import Nonbonded.ExternalField
import Nonbonded.Proofs.Faults

/-!
# Totals handed to a reduction

The total energy of a system is what a reduction makes of the local total, the
one that is not reduced.  A system is refused exactly when it has more types
than the field.

How often a reduction is asked cannot be read off its answer.  A reduction may
therefore have a state, such as a record of what it was given.  It is asked
once, with the local total, when there is one, and a refused total leaves its
state as it was.
-/

namespace Nonbonded.ExternalField

variable {α σ : Type} [Scalar α]
  {field : ExternalField α} {system : ParticleSystem α} {reduce : α → α} {trial : Bool}

theorem totalEnergyFrom_of_unknown (unknown : field.typeCount < system.typeCount)
    (reduce : α → σ → α × σ) (trial : Bool) (state : σ) :
    field.totalEnergyFrom system reduce trial state =
      .ok (.refuse (.typeCountMismatch system.typeCount field.typeCount) state) :=
  if_pos unknown

theorem totalEnergyFrom_of_known (known : system.typeCount ≤ field.typeCount)
    (reduce : α → σ → α × σ) (trial : Bool) (state : σ) :
    field.totalEnergyFrom system reduce trial state =
      ((List.range system.size).mapM (field.energyOf system trial)).map fun energies =>
        .done (reduce (Scalar.sum energies) state).1 (reduce (Scalar.sum energies) state).2 := by
  rw [totalEnergyFrom, if_neg (Nat.not_lt.2 known)]
  cases (List.range system.size).mapM (field.energyOf system trial) <;> rfl

theorem totalEnergy_of_unknown (unknown : field.typeCount < system.typeCount) (reduce : α → α)
    (trial : Bool) : field.totalEnergy system reduce trial =
      .ok (.error (.typeCountMismatch system.typeCount field.typeCount)) := by
  rw [totalEnergy, totalEnergyFrom_of_unknown unknown]
  rfl

theorem totalEnergy_of_known (known : system.typeCount ≤ field.typeCount) (reduce : α → α)
    (trial : Bool) : field.totalEnergy system reduce trial =
      (((List.range system.size).mapM (field.energyOf system trial)).map fun energies =>
        .ok (reduce (Scalar.sum energies))) := by
  rw [totalEnergy, totalEnergyFrom_of_known known]
  cases (List.range system.size).mapM (field.energyOf system trial) <;> rfl

/-- A total is there when the field has the types of the system and every
particle has an energy. -/
theorem totalEnergy_eq_ok_iff {total : α} :
    field.totalEnergy system reduce trial = .ok (.ok total) ↔ system.typeCount ≤ field.typeCount ∧
      ∃ energies, (List.range system.size).mapM (field.energyOf system trial) = .ok energies ∧
        reduce (Scalar.sum energies) = total := by
  rcases Nat.lt_or_ge field.typeCount system.typeCount with unknown | known
  · rw [totalEnergy_of_unknown unknown]
    constructor
    · nofun
    · rintro ⟨known, -⟩
      omega
  · rw [totalEnergy_of_known known, map_eq_ok_iff, and_iff_right known]
    simp only [Except.ok.injEq]

/-- A total is refused only for a system with more types than the field. -/
theorem totalEnergy_eq_error_iff {error : Error α} :
    field.totalEnergy system reduce trial = .ok (.error error) ↔
      field.typeCount < system.typeCount ∧
        error = .typeCountMismatch system.typeCount field.typeCount := by
  rcases Nat.lt_or_ge field.typeCount system.typeCount with unknown | known
  · rw [totalEnergy_of_unknown unknown, and_iff_right unknown]
    constructor
    · intro refused
      cases refused
      rfl
    · rintro rfl
      rfl
  · rw [totalEnergy_of_known known, map_eq_ok_iff]
    constructor
    · rintro ⟨energies, -, refused⟩
      cases refused
    · rintro ⟨unknown, -⟩
      omega

/-- The total that a reduction is handed is the local one. -/
theorem totalEnergy_eq_ok_iff_local {total : α} :
    field.totalEnergy system reduce trial = .ok (.ok total) ↔
      ∃ part, field.totalEnergy system id trial = .ok (.ok part) ∧ reduce part = total := by
  simp only [totalEnergy_eq_ok_iff, id]
  constructor
  · rintro ⟨known, energies, found, reduced⟩
    exact ⟨_, ⟨known, energies, found, rfl⟩, reduced⟩
  · rintro ⟨_, ⟨known, energies, found, rfl⟩, reduced⟩
    exact ⟨known, energies, found, reduced⟩

/-- A reduction with a state is asked for the local total, if there is one. -/
theorem totalEnergyFrom_eq (field : ExternalField α) (system : ParticleSystem α)
    (reduce : α → σ → α × σ) (trial : Bool) (state : σ) :
    field.totalEnergyFrom system reduce trial state =
      (field.totalEnergy system id trial).map fun
        | .ok part => .done (reduce part state).1 (reduce part state).2
        | .error error => .refuse error state := by
  rcases Nat.lt_or_ge field.typeCount system.typeCount with unknown | known
  · rw [totalEnergyFrom_of_unknown unknown, totalEnergy_of_unknown unknown]
    rfl
  · rw [totalEnergyFrom_of_known known, totalEnergy_of_known known]
    cases (List.range system.size).mapM (field.energyOf system trial) <;> rfl

/-- A reduction is asked once for a total that is there, and is not asked for
one that is refused. -/
structure AsksOnce (field : ExternalField α) (system : ParticleSystem α) (trial : Bool)
    (σ : Type) : Prop where
  answer : ∀ (reduce : α → α) (next : α → σ → σ) (state : σ),
    (field.totalEnergyFrom system (fun part state => (reduce part, next part state)) trial
      state).map (·.answer) = field.totalEnergy system reduce trial
  done : ∀ (reduce : α → σ → α × σ) (state : σ) (total : α) (left : σ),
    field.totalEnergyFrom system reduce trial state = .ok (.done total left) ↔
      ∃ part, field.totalEnergy system id trial = .ok (.ok part) ∧
        reduce part state = (total, left)
  refused : ∀ (reduce : α → σ → α × σ) (state : σ) (error : Error α) (left : σ),
    field.totalEnergyFrom system reduce trial state = .ok (.refuse error left) ↔
      field.typeCount < system.typeCount ∧
        error = .typeCountMismatch system.typeCount field.typeCount ∧ left = state

theorem asksOnce (field : ExternalField α) (system : ParticleSystem α) (trial : Bool) (σ : Type) :
    field.AsksOnce system trial σ where
  answer reduce next state := by
    rw [totalEnergy, totalEnergyFrom_eq, totalEnergyFrom_eq]
    rcases field.totalEnergy system id trial with fault | error | part <;> rfl
  done reduce state total left := by
    rw [totalEnergyFrom_eq, map_eq_ok_iff]
    constructor
    · rintro ⟨error | part, found, asked⟩
      · cases congrArg Reply.answer asked
      · cases asked
        exact ⟨part, found, rfl⟩
    · rintro ⟨part, found, asked⟩
      refine ⟨_, found, ?_⟩
      dsimp only
      rw [asked]
  refused reduce state error left := by
    rw [totalEnergyFrom_eq, map_eq_ok_iff]
    constructor
    · rintro ⟨other | part, found, asked⟩
      · cases asked
        rcases totalEnergy_eq_error_iff.1 found with ⟨unknown, rfl⟩
        exact ⟨unknown, rfl, rfl⟩
      · cases congrArg Reply.answer asked
    · rintro ⟨unknown, rfl, rfl⟩
      exact ⟨_, totalEnergy_of_unknown unknown id trial, rfl⟩

end Nonbonded.ExternalField
