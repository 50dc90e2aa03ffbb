import Nonbonded.Proofs.Exact.NearestImage
import Nonbonded.Proofs.UniformField.Edits

/-!
# Total field energies in exact arithmetic

In exact arithmetic the local total of a field is the sum of the energies of
the particles, in any order.  For a uniform field it is the sum of strength
times height.
-/

namespace Nonbonded

namespace ExternalField

variable {field : ExternalField ℝ} {system : ParticleSystem ℝ} {trial : Bool}

/-- The energy of a particle of a system, zero where there is none. -/
noncomputable def energyOrZero (field : ExternalField ℝ) (system : ParticleSystem ℝ) (trial : Bool)
    (particle : Nat) : ℝ :=
  match field.energyOf system trial particle with
  | .ok energy => energy
  | .error _ => 0

theorem energyOrZero_of_ok {particle : Nat} {energy : ℝ}
    (found : field.energyOf system trial particle = .ok energy) :
    field.energyOrZero system trial particle = energy := by
  rw [energyOrZero, found]

/-- The sum over some particles of a system, all of which have an energy. -/
theorem sum_of_mapM {particles : List Nat} {energies : List ℝ}
    (found : particles.mapM (field.energyOf system trial) = .ok energies) :
    Scalar.sum energies = (particles.map (field.energyOrZero system trial)).sum := by
  have each := mapM_eq_ok_iff.1 found
  clear found
  rw [Scalar.sum_real]
  induction each with
  | nil => rfl
  | cons first _ inductionHypothesis =>
      rw [List.sum_cons, List.map_cons, List.sum_cons, energyOrZero_of_ok first,
        inductionHypothesis]

end ExternalField

namespace UniformField

variable {field : UniformField ℝ} {system : ParticleSystem ℝ}

/-- The local total of a system: strength times height, summed over its
particles. -/
noncomputable def total (field : UniformField ℝ) (system : ParticleSystem ℝ) : ℝ :=
  ∑ particle : Fin system.size,
    field.strengthOf (system.typeAt particle) * field.height (system.placeOf particle)

theorem totalEnergy_eq_total (known : system.typeCount ≤ field.strengths.size) (trial : Bool) :
    field.toExternalField.totalEnergy system id trial = .ok (.ok (field.total system)) := by
  rcases exists_totalEnergy field system id trial with ⟨error | sum, answered⟩
  · rcases ExternalField.totalEnergy_eq_error_iff.1 answered with ⟨unknown, -⟩
    exact absurd known (Nat.not_le.2 unknown)
  · rcases ExternalField.totalEnergy_eq_ok_iff.1 answered with ⟨-, energies, found, rfl⟩
    rw [answered, id, ExternalField.sum_of_mapM found, ← List.map_coe_finRange_eq_range,
      List.map_map, total, Fin.sum_univ_def]
    refine congrArg (fun terms : List ℝ => Except.ok (Except.ok terms.sum)) ?_
    apply List.map_congr_left
    intro particle _
    exact ExternalField.energyOrZero_of_ok (energyOf_eq known trial particle)

end UniformField

/-! ## A mixture in a field -/

/-- Three particles of two types on the first axis, the last one in the
origin. -/
noncomputable def ParticleSystem.mixture : ParticleSystem ℝ where
  box := realCube
  typeNames := #["A", "B"]
  positions := #[.onFirstAxis 1, .onFirstAxis (-1), .onFirstAxis 0]
  types := #[0, 1, 0]
  diameters := none
  charges := none
  typeNames_pos := by decide
  size_types := rfl
  type_lt := by decide
  size_diameters := by simp
  size_charges := by simp

/-- A field along the first axis from a place on it, with strengths for two
types. -/
noncomputable def UniformField.alongFirstAxis (origin : ℝ) (strengths : Array ℝ) :
    UniformField ℝ where
  origin := .onFirstAxis origin
  normal := .onFirstAxis 1
  strengths := strengths

theorem UniformField.height_alongFirstAxis (origin : ℝ) (strengths : Array ℝ) (x : ℝ) :
    (alongFirstAxis origin strengths).height (.onFirstAxis x) = x - origin := by
  change (Vec3.onFirstAxis 1).dot (.onFirstAxis x - .onFirstAxis origin) = x - origin
  rw [Vec3.onFirstAxis_sub]
  simp [Vec3.dot, Vec3.onFirstAxis, Vec3.ofAxes]

theorem UniformField.total_mixture (origin first second : ℝ) :
    (alongFirstAxis origin #[first, second]).total .mixture =
      first * (1 - origin) + second * (-1 - origin) + first * (0 - origin) := by
  change (∑ particle : Fin 3, (alongFirstAxis origin #[first, second]).strengthOf
    (ParticleSystem.mixture.typeAt particle) * (alongFirstAxis origin #[first, second]).height
      (ParticleSystem.mixture.placeOf particle)) = _
  rw [Fin.sum_univ_three]
  change first * (alongFirstAxis origin #[first, second]).height (.onFirstAxis 1) +
    second * (alongFirstAxis origin #[first, second]).height (.onFirstAxis (-1)) +
      first * (alongFirstAxis origin #[first, second]).height (.onFirstAxis 0) = _
  rw [height_alongFirstAxis, height_alongFirstAxis, height_alongFirstAxis]

end Nonbonded
