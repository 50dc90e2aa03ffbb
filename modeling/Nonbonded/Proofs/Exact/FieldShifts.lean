import Nonbonded.Proofs.Exact.FieldTotal
import Nonbonded.Proofs.Exact.UnitNormal

/-!
# How field energies respond to changes

In exact arithmetic the local total of a uniform field follows simple rules.
Moving the plane changes it by the strengths of all particles times the
distance the plane moves along the normal, and moving all particles changes it
the other way.  Turning the normal around negates it.  With plane and positions
fixed it is linear in the strengths of the types.

The rules are about setters and what they store, so the normal that is turned
around is normalized again.
-/

namespace Nonbonded

namespace Vec3

theorem dot_eq_sum (v w : Vec3 ℝ) : v.dot w = ∑ axis, v.get axis * w.get axis := by
  rw [Fin.sum_univ_three]
  rfl

theorem dot_add (v w u : Vec3 ℝ) : v.dot (w + u) = v.dot w + v.dot u := by
  simp only [dot_eq_sum, get_add, mul_add, Finset.sum_add_distrib]

theorem dot_sub (v w u : Vec3 ℝ) : v.dot (w - u) = v.dot w - v.dot u := by
  simp only [dot_eq_sum, get_sub, mul_sub, Finset.sum_sub_distrib]

theorem neg_dot (v w : Vec3 ℝ) : (-v).dot w = -v.dot w := by
  simp only [dot_eq_sum, get_neg, neg_mul, Finset.sum_neg_distrib]

end Vec3

namespace UniformField

variable {field other : UniformField ℝ} {system : ParticleSystem ℝ}

/-- The strengths of all particles of a system together. -/
noncomputable def load (field : UniformField ℝ) (system : ParticleSystem ℝ) : ℝ :=
  ∑ particle : Fin system.size, field.strengthOf (system.typeAt particle)

theorem load_mixture (origin first second : ℝ) :
    (alongFirstAxis origin #[first, second]).load .mixture = first + second + first := by
  change (∑ particle : Fin 3, (alongFirstAxis origin #[first, second]).strengthOf
    (ParticleSystem.mixture.typeAt particle)) = _
  rw [Fin.sum_univ_three]
  rfl

/-! ## Moving the plane and the particles -/

/-- When every particle rises by the same height and keeps its strength, the
total grows by the load times this height. -/
theorem total_of_rise {moved : ParticleSystem ℝ} {rise : ℝ} (size : system.size = moved.size)
    (heights : ∀ particle : Fin system.size,
      other.height (moved.placeOf (Fin.cast size particle)) =
        field.height (system.placeOf particle) + rise)
    (strengths : ∀ particle : Fin system.size,
      other.strengthOf (moved.typeAt (Fin.cast size particle)) =
        field.strengthOf (system.typeAt particle)) :
    other.total moved = field.total system + field.load system * rise := by
  calc other.total moved
      = ∑ particle : Fin system.size, other.strengthOf (moved.typeAt (Fin.cast size particle)) *
          other.height (moved.placeOf (Fin.cast size particle)) :=
        (Fintype.sum_equiv (finCongr size) _ _ fun _ => rfl).symm
    _ = ∑ particle : Fin system.size,
          (field.strengthOf (system.typeAt particle) * field.height (system.placeOf particle) +
            field.strengthOf (system.typeAt particle) * rise) := by
        apply Finset.sum_congr rfl
        intro particle _
        rw [strengths, heights, mul_add]
    _ = field.total system + field.load system * rise := by
        rw [Finset.sum_add_distrib, ← Finset.sum_mul, total, load]

theorem total_setOrigin (field : UniformField ℝ) (system : ParticleSystem ℝ) (shift : Vec3 ℝ) :
    (field.setOrigin (field.origin + shift)).total system =
      field.total system - field.load system * field.normal.dot shift := by
  have heights : ∀ here, (field.setOrigin (field.origin + shift)).height here =
      field.height here + -field.normal.dot shift := by
    intro here
    change field.normal.dot (here - (field.origin + shift)) =
      field.normal.dot (here - field.origin) + -field.normal.dot shift
    rw [Vec3.dot_sub, Vec3.dot_sub, Vec3.dot_add]
    ring
  rw [total_of_rise rfl (fun particle => heights (system.placeOf particle)) fun _ => rfl, mul_neg,
    ← sub_eq_add_neg]

theorem height_add (field : UniformField ℝ) (here shift : Vec3 ℝ) :
    field.height (here + shift) = field.height here + field.normal.dot shift := by
  rw [height, height, Vec3.dot_sub, Vec3.dot_sub, Vec3.dot_add]
  ring

/-- The total of a system whose particles have all been moved by one vector. -/
theorem total_of_moved {moved : ParticleSystem ℝ} {shift : Vec3 ℝ}
    (types : moved.types = system.types)
    (positions : moved.positions = system.positions.map (· + shift)) (field : UniformField ℝ) :
    field.total moved = field.total system + field.load system * field.normal.dot shift := by
  have size : system.size = moved.size := by
    rw [ParticleSystem.size, ParticleSystem.size, positions, Array.size_map]
  have typeAt : ∀ particle : Fin system.size,
      moved.typeAt (Fin.cast size particle) = system.typeAt particle := by
    intro particle
    have read := moved.typeOf_eq_typeAt (Fin.cast size particle)
    rw [ParticleSystem.typeOf, types] at read
    exact Except.ok.inj (read.symm.trans (system.typeOf_eq_typeAt particle))
  have placeOf : ∀ particle : Fin system.size,
      moved.placeOf (Fin.cast size particle) = system.placeOf particle + shift := by
    intro particle
    have read := entryAt_eq_ok_iff.1 (moved.position_eq_placeOf (Fin.cast size particle))
    rw [positions, Array.getElem?_map, Fin.val_cast,
      entryAt_eq_ok_iff.1 (system.position_eq_placeOf particle)] at read
    exact (Option.some.inj read).symm
  apply total_of_rise size
  · intro particle
    rw [placeOf, height_add]
  · intro particle
    rw [typeAt]

/-! ## Turning the normal around -/

theorem total_opposite (field : UniformField ℝ) (system : ParticleSystem ℝ) :
    ({ field with normal := -field.normal } : UniformField ℝ).total system =
      -field.total system := by
  rw [total, total, ← Finset.sum_neg_distrib]
  apply Finset.sum_congr rfl
  intro particle _
  rw [height, Vec3.neg_dot, mul_neg]
  rfl

/-! ## Strengths -/

theorem SamePlane.total_eq (same : field.SamePlane other) (system : ParticleSystem ℝ) :
    other.total system =
      ∑ particle : Fin system.size,
        other.strengthOf (system.typeAt particle) * field.height (system.placeOf particle) := by
  simp only [total, height, same.origin, same.normal]

/-- The total is linear in the strengths of the types. -/
theorem total_linear {first second combined : UniformField ℝ} {n : Nat} {a b : ℝ}
    (firstPlane : field.SamePlane first) (secondPlane : field.SamePlane second)
    (combinedPlane : field.SamePlane combined)
    (strengths : ∀ type < n,
      combined.strengthOf type = a * first.strengthOf type + b * second.strengthOf type)
    (known : system.typeCount ≤ n) :
    combined.total system = a * first.total system + b * second.total system := by
  rw [firstPlane.total_eq, secondPlane.total_eq, combinedPlane.total_eq, Finset.mul_sum,
    Finset.mul_sum, ← Finset.sum_add_distrib]
  apply Finset.sum_congr rfl
  intro particle _
  rw [strengths _ ((system.typeAt_lt_typeCount particle).trans_le known)]
  ring

/-! ## All responses together -/

/-- The local total of a system in a field is found, and this is it. -/
def HasTotal (field : UniformField ℝ) (system : ParticleSystem ℝ) (trial : Bool) (energy : ℝ) :
    Prop :=
  field.toExternalField.totalEnergy system id trial = .ok (.ok energy)

/-- How the local total of a system in a field of `n` types responds when the
plane is moved, when all particles are moved, when the normal is turned around,
and when strengths are set. -/
structure Responds (field : UniformField ℝ) (n : Nat) (system : ParticleSystem ℝ) (trial : Bool)
    (energy : ℝ) : Prop where
  found : field.HasTotal system trial energy
  setOrigin : ∀ shift, (field.setOrigin (field.origin + shift)).HasTotal system trial
    (energy - field.load system * field.normal.dot shift)
  setOrigin_inPlane : ∀ shift, field.normal.dot shift = 0 →
    (field.setOrigin (field.origin + shift)).HasTotal system trial energy
  setPositions : ∀ shift, ∃ moved,
    system.setPositions (system.positions.map (· + shift)) = .done () moved ∧
      field.HasTotal moved trial (energy + field.load system * field.normal.dot shift)
  setNormal_opposite : ∃ turned, field.setNormal (-field.normal) = .done () turned ∧
    turned.HasTotal system trial (-energy)
  setNormal_neg : ∀ direction turned other, field.setNormal direction = .done () turned →
    turned.HasTotal system trial other →
      ∃ back, field.setNormal (-direction) = .done () back ∧ back.HasTotal system trial (-other)
  /-- Any strengths can be set. -/
  settable : ∀ values, ∀ type < n, (field.setFirst n values).strength type = .ok (values type)
  /-- However the strengths were set, the total is linear in them. -/
  linear : ∀ first second combined firstEnergy secondEnergy (a b : ℝ),
    (field.setAll first).HasTotal system trial firstEnergy →
    (field.setAll second).HasTotal system trial secondEnergy →
    (∀ type < n, (field.setAll combined).strengthOf type =
      a * (field.setAll first).strengthOf type + b * (field.setAll second).strengthOf type) →
    (field.setAll combined).HasTotal system trial (a * firstEnergy + b * secondEnergy)

variable {n : Nat} {trial : Bool}

/-- With a strength for each type, the local total is the sum of strength times
height. -/
theorem hasTotal_total (known : system.typeCount ≤ field.strengths.size) :
    field.HasTotal system trial (field.total system) :=
  totalEnergy_eq_total known trial

theorem HasTotal.eq_total {energy : ℝ} (found : field.HasTotal system trial energy)
    (known : system.typeCount ≤ field.strengths.size) : energy = field.total system :=
  Except.ok.inj (Except.ok.inj (found.symm.trans (hasTotal_total known)))

theorem hasTotal_setOrigin (known : system.typeCount ≤ field.strengths.size) (shift : Vec3 ℝ) :
    (field.setOrigin (field.origin + shift)).HasTotal system trial
      (field.total system - field.load system * field.normal.dot shift) := by
  rw [← total_setOrigin]
  exact hasTotal_total known

theorem exists_hasTotal_moved (known : system.typeCount ≤ field.strengths.size) (shift : Vec3 ℝ) :
    ∃ moved, system.setPositions (system.positions.map (· + shift)) = .done () moved ∧
      field.HasTotal moved trial
        (field.total system + field.load system * field.normal.dot shift) := by
  rcases system.replace_cases (.positions (system.positions.map (· + shift))) with
    ⟨-, moved, made, replaced⟩ | ⟨misfit, -⟩
  · have knownToo : moved.typeCount ≤ field.strengths.size := by
      rw [ParticleSystem.typeCount, replaced.typeNames]
      exact known
    refine ⟨moved, made, ?_⟩
    rw [← total_of_moved replaced.types replaced.positions field]
    exact hasTotal_total knownToo
  · exact absurd (Array.size_map ..) misfit

theorem hasTotal_opposite (known : system.typeCount ≤ field.strengths.size) :
    ({ field with normal := -field.normal } : UniformField ℝ).HasTotal system trial
      (-field.total system) := by
  rw [← total_opposite]
  exact hasTotal_total known

theorem Kept.responds (kept : field.Kept n) (known : system.typeCount ≤ n) (trial : Bool) :
    field.Responds n system trial (field.total system) := by
  have enough : system.typeCount ≤ field.strengths.size := known.trans_eq kept.size_strengths.symm
  have enoughSet : ∀ values, system.typeCount ≤ (field.setAll values).strengths.size :=
    fun values => enough.trans_eq (samePlane_setAll field values).size_strengths.symm
  constructor
  case found => exact hasTotal_total enough
  case setOrigin => exact hasTotal_setOrigin enough
  case setOrigin_inPlane =>
    intro shift within
    have moved : (field.setOrigin (field.origin + shift)).HasTotal system trial _ :=
      hasTotal_setOrigin enough shift
    rw [within, mul_zero, sub_zero] at moved
    exact moved
  case setPositions => exact exists_hasTotal_moved enough
  case setNormal_opposite =>
    have isUnit := kept.hasUnitNormal.length_normal
    have turned := setNormal_of_normalize (normalize_neg (normalize_of_length_eq_one isUnit)) field
    exact ⟨_, turned, hasTotal_opposite enough⟩
  case setNormal_neg =>
    intro direction turned other made found
    have back := kept.hasUnitNormal.setNormal_neg direction turned made
    rcases exists_normalize_of_setNormal made with ⟨unit, -, rfl⟩
    rw [found.eq_total enough]
    exact ⟨_, back, hasTotal_opposite enough⟩
  case settable =>
    intro values type below
    have inRange : type < (field.setFirst n values).strengths.size := by
      rw [setFirst, (samePlane_setAll field _).size_strengths, kept.size_strengths]
      exact below
    rw [strength_eq_ok inRange,
      strengthOf_setFirst field values kept.size_strengths.ge type below]
  case linear =>
    intro first second combined firstEnergy secondEnergy a b firstFound secondFound strengths
    have linear := total_linear (samePlane_setAll field first) (samePlane_setAll field second)
      (samePlane_setAll field combined) strengths known
    rw [firstFound.eq_total (enoughSet first), secondFound.eq_total (enoughSet second), ← linear]
    exact hasTotal_total (enoughSet combined)

/-- Whatever edits are tried on a field, the local total of every system of
known types is found.  Moving the plane or the particles changes it by the load
times the distance along the normal, turning the normal around negates it, and
it is linear in the strengths that are set. -/
theorem responds_editAll {start : UniformField ℝ} {origin direction : Vec3 ℝ}
    (created : create n origin direction = .ok start) (edits : List (Edit ℝ))
    (known : system.typeCount ≤ n) (trial : Bool) :
    ∃ energy, (start.editAll edits).Responds n system trial energy :=
  ⟨_, ((kept_of_create created).editAll edits).responds known trial⟩

/-- The mixture in a field whose strengths were set after its creation. -/
theorem responds_editAll_mixture :
    ∃ start : UniformField ℝ, create 2 (.onFirstAxis 0) (.onFirstAxis 1) = .ok start ∧
      start.editAll [.strength 0 (3 / 2), .strength 1 (-1)] = alongFirstAxis 0 #[3 / 2, -1] ∧
      (alongFirstAxis 0 #[3 / 2, -1]).Responds 2 .mixture false (5 / 2) ∧
      ((alongFirstAxis 0 #[3 / 2, -1]).setOrigin (.onFirstAxis 0 + .onFirstAxis 1)).HasTotal
        .mixture false (1 / 2) := by
  have normalized : normalize (.onFirstAxis 1) = .ok (.onFirstAxis 1) :=
    normalize_onFirstAxis (by norm_num) (by norm_num)
  have created : create 2 (.onFirstAxis 0) (.onFirstAxis 1) =
      .ok (alongFirstAxis 0 (.replicate 2 (Scalar.ofNat 0))) :=
    create_eq_ok_iff.2 ⟨normalized, rfl, rfl⟩
  have edited : (alongFirstAxis 0 (.replicate 2 (Scalar.ofNat 0))).editAll
      [.strength 0 (3 / 2), .strength 1 (-1)] = alongFirstAxis 0 #[3 / 2, -1] := rfl
  have known : ParticleSystem.mixture.typeCount ≤ 2 := le_rfl
  rcases responds_editAll created [.strength 0 (3 / 2), .strength 1 (-1)] known false with
    ⟨energy, responds⟩
  rw [edited] at responds
  have value : energy = 5 / 2 := by
    rw [responds.found.eq_total le_rfl, total_mixture]
    norm_num
  have load : (alongFirstAxis 0 #[3 / 2, -1]).load .mixture = 2 := by
    rw [load_mixture]
    norm_num
  have moved := responds.setOrigin (.onFirstAxis 1)
  have rise : (alongFirstAxis 0 #[3 / 2, -1]).normal.dot (.onFirstAxis 1) = 1 := by
    simp [alongFirstAxis, Vec3.dot, Vec3.onFirstAxis, Vec3.ofAxes]
  rw [load, rise, value] at moved
  norm_num at moved
  exact ⟨_, created, edited, value ▸ responds, moved⟩

end UniformField

end Nonbonded
