import Nonbonded.Proofs.Exact.FieldTotal
import Nonbonded.Proofs.ParticleSystem.Domains

/-!
# Total energies over domains

A particle has the same energy in its domain as in the whole system, or none in
either.  So when domains share out a system, every domain has a local total
exactly when the system has one, and in exact arithmetic these totals add up to
it, however the particles are shared out and in whatever order they are held.

All domains have the types of the system.  There has to be one, for without a
domain no total is refused.
-/

namespace Nonbonded

namespace ExternalField

section

variable {α : Type} [Scalar α] {field : ExternalField α} {system domain : ParticleSystem α}
  {members : List Nat} {trial : Bool}

theorem energyOf_of_isDomain (isDomain : system.IsDomain domain members) {place member : Nat}
    (listed : members[place]? = some member) :
    field.energyOf domain trial place = field.energyOf system trial member := by
  rw [energyOf, energyOf, isDomain.box, isDomain.typeOf place member listed,
    isDomain.position place member listed, isDomain.charge place member listed]

/-- The energies of a domain are those of its members. -/
theorem mapM_energyOf_of_isDomain (isDomain : system.IsDomain domain members) :
    (List.range domain.size).mapM (field.energyOf domain trial) =
      members.mapM (field.energyOf system trial) := by
  rw [isDomain.size]
  exact mapM_range_length fun place member listed => energyOf_of_isDomain isDomain listed

/-- Every particle of a list has an energy. -/
def Evaluates (field : ExternalField α) (system : ParticleSystem α) (trial : Bool)
    (particles : List Nat) : Prop :=
  ∀ particle ∈ particles, ∃ energy, field.energyOf system trial particle = .ok energy

end

variable {field : ExternalField ℝ} {system domain : ParticleSystem ℝ} {members : List Nat}
  {trial : Bool} {total : ℝ}

/-- The local total of a domain is the sum over its members. -/
theorem totalEnergy_domain_iff (isDomain : system.IsDomain domain members) :
    field.totalEnergy domain id trial = .ok (.ok total) ↔
      system.typeCount ≤ field.typeCount ∧ field.Evaluates system trial members ∧
        (members.map (field.energyOrZero system trial)).sum = total := by
  rw [totalEnergy_eq_ok_iff, isDomain.typeCount, mapM_energyOf_of_isDomain isDomain]
  refine and_congr_right fun _ => ?_
  constructor
  · rintro ⟨energies, found, rfl⟩
    exact ⟨exists_mapM_iff.1 ⟨energies, found⟩, (sum_of_mapM found).symm⟩
  · rintro ⟨evaluates, rfl⟩
    rcases exists_mapM_iff.2 evaluates with ⟨energies, found⟩
    exact ⟨energies, found, sum_of_mapM found⟩

theorem exists_totalEnergy_domain_iff (isDomain : system.IsDomain domain members) :
    (∃ part, field.totalEnergy domain id trial = .ok (.ok part)) ↔
      system.typeCount ≤ field.typeCount ∧ field.Evaluates system trial members := by
  simp only [totalEnergy_domain_iff isDomain]
  constructor
  · rintro ⟨part, known, evaluates, -⟩
    exact ⟨known, evaluates⟩
  · rintro ⟨known, evaluates⟩
    exact ⟨_, known, evaluates, rfl⟩

theorem evaluates_flatten_iff {rows : List (List Nat)} :
    field.Evaluates system trial rows.flatten ↔
      ∀ row ∈ rows, field.Evaluates system trial row := by
  constructor
  · intro evaluates row listed particle member
    exact evaluates particle (List.mem_flatten.2 ⟨row, listed, member⟩)
  · intro each particle member
    rcases List.mem_flatten.1 member with ⟨row, listed, member⟩
    exact each row listed particle member

theorem evaluates_of_perm {particles others : List Nat} (reordered : particles.Perm others) :
    field.Evaluates system trial particles ↔ field.Evaluates system trial others :=
  forall_congr' fun _ => imp_congr_left reordered.mem_iff

/-- Domains that all have a total have one exactly when their rows of members
can be evaluated. -/
theorem forall_domains_iff {domains : List (ParticleSystem ℝ)} {rows : List (List Nat)}
    (areDomains : List.Forall₂ system.IsDomain domains rows) :
    (∀ domain ∈ domains, ∃ part, field.totalEnergy domain id trial = .ok (.ok part)) ↔
      ∀ row ∈ rows, system.typeCount ≤ field.typeCount ∧ field.Evaluates system trial row := by
  induction areDomains with
  | nil => simp
  | cons isDomain _ inductionHypothesis =>
      rw [List.forall_mem_cons, List.forall_mem_cons, exists_totalEnergy_domain_iff isDomain,
        inductionHypothesis]

/-- The totals of domains add up to the sum over all their members. -/
theorem exists_parts {domains : List (ParticleSystem ℝ)} {rows : List (List Nat)}
    (areDomains : List.Forall₂ system.IsDomain domains rows)
    (known : system.typeCount ≤ field.typeCount)
    (evaluates : ∀ row ∈ rows, field.Evaluates system trial row) :
    ∃ parts, List.Forall₂
        (fun domain part => field.totalEnergy domain id trial = .ok (.ok part)) domains parts ∧
      parts.sum = (rows.flatten.map (field.energyOrZero system trial)).sum := by
  induction areDomains with
  | nil => exact ⟨[], .nil, rfl⟩
  | cons isDomain _ inductionHypothesis =>
      rw [List.forall_mem_cons] at evaluates
      rcases inductionHypothesis evaluates.2 with ⟨parts, found, sum⟩
      have first := (totalEnergy_domain_iff isDomain).2 ⟨known, evaluates.1, rfl⟩
      refine ⟨_ :: parts, .cons first found, ?_⟩
      rw [List.sum_cons, sum, List.flatten_cons, List.map_append, List.sum_append]

section

variable {domains : List (ParticleSystem ℝ)}

/-- The local total of a system that is shared out is the sum over the rows of
its domains. -/
theorem totalEnergy_rows_iff {rows : List (List Nat)}
    (once : rows.flatten.Perm (List.range system.size)) :
    field.totalEnergy system id trial = .ok (.ok total) ↔
      system.typeCount ≤ field.typeCount ∧ (∀ row ∈ rows, field.Evaluates system trial row) ∧
        (rows.flatten.map (field.energyOrZero system trial)).sum = total := by
  rw [totalEnergy_domain_iff system.isDomain_self, ← evaluates_of_perm once, evaluates_flatten_iff,
    (once.map (field.energyOrZero system trial)).sum_eq]

theorem exists_totalEnergy_iff_domains (shared : system.SharedOut domains)
    (inhabited : domains ≠ []) :
    (∃ total, field.totalEnergy system id trial = .ok (.ok total)) ↔
      ∀ domain ∈ domains, ∃ part, field.totalEnergy domain id trial = .ok (.ok part) := by
  rcases List.exists_mem_of_ne_nil domains inhabited with ⟨first, isThere⟩
  have sameTypes := shared.typeCount isThere
  rcases shared with ⟨rows, areDomains, once⟩
  rw [forall_domains_iff areDomains]
  constructor
  · rintro ⟨total, found⟩ row listed
    rcases (totalEnergy_rows_iff once).1 found with ⟨known, evaluates, -⟩
    exact ⟨known, evaluates row listed⟩
  · intro each
    rcases (forall_domains_iff areDomains).2 each first isThere with ⟨part, found⟩
    have known := (totalEnergy_eq_ok_iff.1 found).1
    rw [sameTypes] at known
    exact ⟨_, (totalEnergy_rows_iff once).2 ⟨known, fun row listed => (each row listed).2, rfl⟩⟩

theorem sum_parts_of_totalEnergy (shared : system.SharedOut domains)
    (found : field.totalEnergy system id trial = .ok (.ok total)) :
    ∃ parts, List.Forall₂
        (fun domain part => field.totalEnergy domain id trial = .ok (.ok part)) domains parts ∧
      parts.sum = total := by
  rcases shared with ⟨rows, areDomains, once⟩
  rcases (totalEnergy_rows_iff once).1 found with ⟨known, evaluates, rfl⟩
  exact exists_parts areDomains known evaluates

theorem refused_iff_domains (shared : system.SharedOut domains) (inhabited : domains ≠ [])
    (error : Error ℝ) :
    field.totalEnergy system id trial = .ok (.error error) ↔
      ∀ domain ∈ domains, field.totalEnergy domain id trial = .ok (.error error) := by
  have sameTypes : ∀ domain ∈ domains, domain.typeCount = system.typeCount :=
    fun domain member => shared.typeCount member
  constructor
  · intro refused domain member
    rw [totalEnergy_eq_error_iff, sameTypes domain member]
    exact totalEnergy_eq_error_iff.1 refused
  · intro each
    rcases List.exists_mem_of_ne_nil domains inhabited with ⟨first, isThere⟩
    have refused := totalEnergy_eq_error_iff.1 (each first isThere)
    rw [sameTypes first isThere] at refused
    exact totalEnergy_eq_error_iff.2 refused

end

/-- When domains share out a system, the system has a local total exactly when
every domain has one, and these add up to it; the system is refused with an
error exactly when every domain is.  A total is what the reduction makes of the
local one.  A reduction with a state is asked for it once, and when the system
is refused it is not asked at all. -/
theorem sum_totals_of_sharedOut (field : ExternalField ℝ) (system : ParticleSystem ℝ)
    (trial : Bool) :
    (∀ domains, system.SharedOut domains → domains ≠ [] →
      ((∃ total, field.totalEnergy system id trial = .ok (.ok total)) ↔
        ∀ domain ∈ domains, ∃ part, field.totalEnergy domain id trial = .ok (.ok part)) ∧
      (∀ total, field.totalEnergy system id trial = .ok (.ok total) →
        ∃ parts, List.Forall₂
            (fun domain part => field.totalEnergy domain id trial = .ok (.ok part)) domains parts ∧
          parts.sum = total) ∧
      ∀ error, field.totalEnergy system id trial = .ok (.error error) ↔
        ∀ domain ∈ domains, field.totalEnergy domain id trial = .ok (.error error)) ∧
    (∀ reduce total, field.totalEnergy system reduce trial = .ok (.ok total) ↔
      ∃ part, field.totalEnergy system id trial = .ok (.ok part) ∧ reduce part = total) ∧
    ∀ σ, field.AsksOnce system trial σ := by
  refine ⟨?_, fun reduce total => totalEnergy_eq_ok_iff_local, field.asksOnce system trial⟩
  intro domains shared inhabited
  exact ⟨exists_totalEnergy_iff_domains shared inhabited,
    fun total found => sum_parts_of_totalEnergy shared found,
    refused_iff_domains shared inhabited⟩

open ParticleSystem (mixture)

/-- Two domains with particles, the second particle of the mixture in the last
one, and an empty domain. -/
noncomputable def mixtureDomains : List (ParticleSystem ℝ) :=
  [[2, 0], [], [1]].map fun row : List (Fin 3) => mixture.select row

theorem sum_totals_of_sharedOut_mixture :
    mixture.SharedOut mixtureDomains ∧ mixtureDomains ≠ [] ∧
      ∃ parts, List.Forall₂ (fun domain part =>
          (UniformField.alongFirstAxis 0 #[3 / 2, -1]).toExternalField.totalEnergy domain id
            false = .ok (.ok part)) mixtureDomains parts ∧
        parts.sum = 5 / 2 := by
  have once : ([[2, 0], [], [1]] : List (List (Fin 3))).flatten.Perm (List.finRange 3) := by decide
  have shared : mixture.SharedOut mixtureDomains := ParticleSystem.sharedOut_select mixture once
  have inhabited : mixtureDomains ≠ [] := nofun
  have found : (UniformField.alongFirstAxis 0 #[3 / 2, -1]).toExternalField.totalEnergy mixture id
      false = .ok (.ok (5 / 2)) := by
    rw [UniformField.totalEnergy_eq_total le_rfl, UniformField.total_mixture]
    norm_num
  have verdict := sum_totals_of_sharedOut
    (UniformField.alongFirstAxis 0 #[3 / 2, -1]).toExternalField mixture false
  exact ⟨shared, inhabited, (verdict.1 mixtureDomains shared inhabited).2.1 _ found⟩

end ExternalField

end Nonbonded
