import Nonbonded.Proofs.Exact.Verdict
import Nonbonded.Proofs.Potential.Settings

/-!
# Current settings in exact arithmetic

Whatever commands a new potential is given, every pair of types holds the
squares of the radii that were accepted for it last, and the parameters that
were.  Accepted radii are not negative and a pair without one has zero in its
place, so the largest cutoff of the potential is the largest of the current
ones.
-/

namespace Nonbonded

variable {law : PairLaw ℝ}

theorem Radius.isValid_real_iff {value : ℝ} : Radius.isValid value = true ↔ 0 ≤ value := by
  have zero : @OfNat.ofNat ℝ 0 (Scalar.numeral 0) = 0 := Nat.cast_zero
  rw [isValid, zero, Bool.and_eq_true, decide_eq_true_iff]
  exact and_iff_right rfl

/-- The square of a radius that may be absent, in place of which there is
zero. -/
theorem getD_map_mul_self (radius : Option ℝ) :
    (radius.map fun last => last * last).getD 0 = radius.getD 0 ^ 2 := by
  cases radius with
  | none => simp
  | some last => exact (sq last).symm

namespace SettingHistory

variable {made : SettingHistory law}

/-- The cutoff that a history leaves a pair: the last one assigned to it, or
zero. -/
def currentCutoff (made : SettingHistory law) (pair : Sym2 Nat) : ℝ :=
  (made.last? Setting.cutoff? pair).getD 0

/-- The onset that a history leaves a pair: the last one assigned to it, or
zero. -/
def currentOnset (made : SettingHistory law) (pair : Sym2 Nat) : ℝ :=
  (made.last? Setting.onset? pair).getD 0

/-- The parameters that a history leaves a pair: the last ones assigned to it,
or unset ones. -/
def currentParams (made : SettingHistory law) (pair : Sym2 Nat) : law.Params :=
  (made.last? Setting.params? pair).getD law.unset

theorem rcutsq_afterHistory (made : SettingHistory law) (pair : Sym2 Nat) :
    ((PairEntry.unset law).afterHistory made pair).rcutsq = made.currentCutoff pair ^ 2 := by
  have zero : (PairEntry.unset law).rcutsq = 0 := Nat.cast_zero
  rw [PairEntry.afterHistory, zero, getD_map_mul_self, currentCutoff]

theorem ronsq_afterHistory (made : SettingHistory law) (pair : Sym2 Nat) :
    ((PairEntry.unset law).afterHistory made pair).ronsq = made.currentOnset pair ^ 2 := by
  have zero : (PairEntry.unset law).ronsq = 0 := Nat.cast_zero
  rw [PairEntry.afterHistory, zero, getD_map_mul_self, currentOnset]

theorem currentCutoff_nonneg (valid : ∀ assignment ∈ made, assignment.2.isValid = true)
    (pair : Sym2 Nat) : 0 ≤ made.currentCutoff pair := by
  rw [currentCutoff]
  cases last : made.last? Setting.cutoff? pair with
  | none => exact le_rfl
  | some radius =>
      rcases List.mem_filterMap.1 (List.mem_of_getLast? last) with ⟨⟨named, setting⟩, member, read⟩
      split at read
      · cases setting with
        | cutoff value =>
            cases read
            exact Radius.isValid_real_iff.1 (valid _ member)
        | params value => cases read
        | onset value => cases read
      · cases read

end SettingHistory

namespace Potential

variable {ν : Type} {potential : Potential law ν} {n : Nat} {made : SettingHistory law}

/-! ## The largest of the current cutoffs -/

/-- A table holds what a history assigned last. -/
abbrev HoldsLast (potential : Potential law ν) (n : Nat) (made : SettingHistory law) : Prop :=
  potential.table.Holds n ((PairEntry.unset law).afterHistory made)

theorem HoldsLast.isCutoff_iff (holds : potential.HoldsLast n made)
    (valid : ∀ assignment ∈ made, assignment.2.isValid = true) {radius : ℝ} :
    potential.IsCutoff radius ↔
      ∃ type1 < n, ∃ type2 < n, radius = made.currentCutoff s(type1, type2) := by
  constructor
  · rintro ⟨nonneg, type1, type2, entry, read, square⟩
    have inside : type1 < n ∧ type2 < n := by
      by_contra outside
      cases read.symm.trans (holds.tryGetOutside type1 type2 (by omega))
    rcases inside with ⟨lt1, lt2⟩
    cases (holds.tryGet type1 type2 lt1 lt2).symm.trans read
    rw [SettingHistory.rcutsq_afterHistory, ← sq] at square
    refine ⟨type1, lt1, type2, lt2, ?_⟩
    exact ((pow_left_inj₀ (SettingHistory.currentCutoff_nonneg valid _) nonneg two_ne_zero).1
      square).symm
  · rintro ⟨type1, lt1, type2, lt2, rfl⟩
    refine ⟨SettingHistory.currentCutoff_nonneg valid _, type1, type2, _,
      holds.tryGet type1 type2 lt1 lt2, ?_⟩
    rw [SettingHistory.rcutsq_afterHistory, sq]

/-- The largest cutoff is the largest of the current ones. -/
theorem HoldsLast.isGreatest_maxCutoff (holds : potential.HoldsLast n made)
    (valid : ∀ assignment ∈ made, assignment.2.isValid = true) (inhabited : 0 < n) :
    IsGreatest {radius | ∃ type1 < n, ∃ type2 < n, radius = made.currentCutoff s(type1, type2)}
      potential.maxCutoff := by
  simp only [← holds.isCutoff_iff valid]
  rcases potential.maxCutoff_nonneg.eq_or_lt with zero | positive
  · -- No cutoff is above zero, so that of the first type with itself is zero.
    have first : potential.IsCutoff (made.currentCutoff s(0, 0)) :=
      (holds.isCutoff_iff valid).2 ⟨0, inhabited, 0, inhabited, rfl⟩
    have same : potential.maxCutoff = made.currentCutoff s(0, 0) :=
      le_antisymm (zero ▸ first.1) first.le_maxCutoff
    exact ⟨same ▸ first, fun radius cutoff => cutoff.le_maxCutoff⟩
  · exact Potential.isGreatest_maxCutoff positive

theorem HoldsLast.maxCutoff_of_empty (holds : potential.HoldsLast 0 made)
    (valid : ∀ assignment ∈ made, assignment.2.isValid = true) : potential.maxCutoff = 0 := by
  rcases maxCutoff_nonneg.eq_or_lt with zero | positive
  · exact zero.symm
  · rcases (holds.isCutoff_iff valid).1 (Potential.isGreatest_maxCutoff positive).1 with
      ⟨type1, impossible, -⟩
    cases impossible

/-! ## Any sequence of commands -/

/-- The settings of a potential for `n` types are those that a history made
last, and further commands are decided by their validity alone. -/
structure Configured (potential : Potential law ν) (n : Nat) (made : SettingHistory law) :
    Prop where
  entry : ∀ type1 < n, ∀ type2 < n, ∃ entry, potential.table.tryGet type1 type2 = .ok entry ∧
    entry.rcutsq = made.currentCutoff s(type1, type2) ^ 2 ∧ 0 ≤ entry.rcutsq ∧
    entry.ronsq = made.currentOnset s(type1, type2) ^ 2 ∧ 0 ≤ entry.ronsq ∧
    entry.params = made.currentParams s(type1, type2)
  maxCutoff : 0 < n → IsGreatest
    {radius | ∃ type1 < n, ∃ type2 < n, radius = made.currentCutoff s(type1, type2)}
    potential.maxCutoff
  maxCutoff_of_empty : n = 0 → potential.maxCutoff = 0
  decided : ∀ command : Command law,
    (command.isValid n = true ∧ ∃ after, potential.configure command = .done () after) ∨
    (command.isValid n = false ∧ ∃ error, potential.configure command = .refuse error potential)
  commute : ∀ (a b c d : Nat) (first second : Setting law),
    s(a, b) ≠ s(c, d) ∨ first.field ≠ second.field →
      ((potential.set a b first).state.set c d second).state =
        ((potential.set c d second).state.set a b first).state ∧
      ((potential.set a b first).state.set c d second).answer =
        (potential.set c d second).answer ∧
      ((potential.set c d second).state.set a b first).answer =
        (potential.set a b first).answer

theorem HoldsLast.configured (holds : potential.HoldsLast n made)
    (valid : ∀ assignment ∈ made, assignment.2.isValid = true) : potential.Configured n made where
  entry type1 lt1 type2 lt2 := by
    refine ⟨_, holds.tryGet type1 type2 lt1 lt2, ?_⟩
    rw [SettingHistory.rcutsq_afterHistory, SettingHistory.ronsq_afterHistory]
    exact ⟨rfl, sq_nonneg _, rfl, sq_nonneg _, rfl⟩
  maxCutoff := holds.isGreatest_maxCutoff valid
  maxCutoff_of_empty empty := by
    subst empty
    exact holds.maxCutoff_of_empty valid
  decided command := by
    refine (configure_cases holds command).imp_left ?_
    rintro ⟨accepted, after, done, -⟩
    exact ⟨accepted, after, done⟩
  commute a b c d first second different :=
    ⟨set_comm different, answer_set_set _ a b c d first second,
      answer_set_set _ c d a b second first⟩

/-- A new potential that was given any commands has for every unordered pair of
types the squares of the radii that were accepted for it last and the
parameters that were, and its largest cutoff is the largest of the current
ones.  A command is accepted exactly when it is valid for the number of types;
otherwise it leaves everything as it is.  Setters for different pairs or
different fields can be called in either order, with the same answers. -/
theorem configured_configureAll (law : PairLaw ℝ) (small : n < 2 ^ 32) (source : ν) :
    ∃ start, create law n source = .ok start ∧
      ∀ commands, (start.configureAll commands).Configured n (start.history commands) := by
  rcases exists_create law small source with ⟨start, created, holds⟩
  refine ⟨start, created, fun commands => ?_⟩
  exact HoldsLast.configured (holds_configureAll holds commands)
    (isValid_of_mem_history holds commands)

/-- An entry for a pair of types in reverse order. -/
def reversedFile {α : Type} [Scalar α] :
    ParameterFile α (PairLaw.lennardJones : PairLaw α).Params where
  shiftMode := .xplor
  pairs := [⟨"B", "A", 3, none, ⟨1, 1, 1⟩⟩]

theorem resolve_reversedFile :
    (reversedFile : ParameterFile ℝ _).resolve #["A", "B"] = .ok [⟨1, 0, 3, none, ⟨1, 1, 1⟩⟩] := by
  have valid : Radius.isValid (3 : ℝ) = true := Radius.isValid_real_iff.2 (by norm_num)
  simp only [reversedFile, Scalar.numeral_real]
  push_cast
  simp [ParameterFile.resolve, NamedPair.resolve, NamedPair.radii, valid, lookUp,
    List.findIdx?_cons]
  rfl

/-- Setters for a pair in both orders, a negative radius, a type out of range,
and a file that names the pair once more. -/
def mixedCommands {α : Type} [Scalar α] : List (Command (PairLaw.lennardJones : PairLaw α)) :=
  [.set 0 1 (.cutoff 5), .set 1 0 (.onset 2), .set 0 1 (.cutoff (-1)), .set 0 2 (.cutoff 9),
    .install reversedFile #["A", "B"]]

theorem configured_configureAll_mixedCommands :
    2 < 2 ^ 32 ∧ ∃ start : Potential (PairLaw.lennardJones : PairLaw ℝ) (NeighborList ℝ),
      create PairLaw.lennardJones 2 (NeighborList.create 3 1 .half) = .ok start ∧
      (start.configureAll mixedCommands).maxCutoff = 3 ∧
      ∃ entry, (start.configureAll mixedCommands).table.tryGet 0 1 = .ok entry ∧
        entry.rcutsq = 9 ∧ entry.ronsq = 4 ∧ entry.params = ⟨1, 1, 1⟩ := by
  have small : 2 < 2 ^ 32 := by decide
  rcases exists_create (PairLaw.lennardJones : PairLaw ℝ) small
    (NeighborList.create 3 1 .half : NeighborList ℝ) with ⟨start, created, holds⟩
  rcases configured_configureAll (PairLaw.lennardJones : PairLaw ℝ) small
    (NeighborList.create 3 1 .half : NeighborList ℝ) with ⟨same, createdSame, configured⟩
  cases created.symm.trans createdSame
  have made : start.history mixedCommands = [(s(0, 1), .cutoff 5), (s(1, 0), .onset 2),
      (s(1, 0), .params ⟨1, 1, 1⟩), (s(1, 0), .cutoff 3)] := by
    rw [history_eq_flatMap holds]
    simp only [mixedCommands, Scalar.numeral_real]
    push_cast
    simp [Command.isValid, Setting.isValid, Radius.isValid_real_iff, Command.assignments,
      resolve_reversedFile, ResolvedPair.assignments, Except.isOk, Except.toBool]
  have cutoffs : ∀ pair, (start.history mixedCommands).currentCutoff pair =
      if pair = s(0, 1) then 3 else 0 := by
    intro pair
    rw [made]
    by_cases own : pair = s(0, 1)
    · simp [own, SettingHistory.currentCutoff, SettingHistory.last?, Setting.cutoff?]
    · have other : s(1, 0) ≠ pair := fun same => own (same.symm.trans Sym2.eq_swap)
      simp [own, Ne.symm own, other, SettingHistory.currentCutoff, SettingHistory.last?]
  have onset : (start.history mixedCommands).currentOnset s(0, 1) = 2 := by
    simp [made, SettingHistory.currentOnset, SettingHistory.last?, Setting.onset?]
  have params : (start.history mixedCommands).currentParams s(0, 1) = ⟨1, 1, 1⟩ := by
    simp [made, SettingHistory.currentParams, SettingHistory.last?, Setting.params?]
    rfl
  have settled := configured mixedCommands
  refine ⟨small, start, created, ?_, ?_⟩
  · apply (settled.maxCutoff (by decide)).unique
    refine ⟨⟨0, by decide, 1, by decide, by simp [cutoffs]⟩, ?_⟩
    rintro radius ⟨type1, -, type2, -, rfl⟩
    rw [cutoffs]
    split <;> norm_num
  · rcases settled.entry 0 (by decide) 1 (by decide) with
      ⟨entry, read, rcutsq, -, ronsq, -, parameters⟩
    rw [cutoffs, if_pos rfl] at rcutsq
    rw [onset] at ronsq
    exact ⟨entry, read, rcutsq.trans (by norm_num), ronsq.trans (by norm_num),
      parameters.trans params⟩

end Potential

end Nonbonded
