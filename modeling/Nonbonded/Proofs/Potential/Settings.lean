import Nonbonded.Proofs.Potential.Installation
import Nonbonded.Proofs.TypePair.Contents

/-!
# Settings made one by one and by files

A setter assigns one field of one pair of types, and a file assigns several
fields of several pairs.  Both are commands.  Whether a command is accepted
depends on the number of types only; a refused command leaves the potential as
it is.

The assignments of the accepted commands, in order, are a history.  After any
sequence of commands every field of every pair holds what the history assigned
to it last.  Assignments to different pairs, or to different fields, can be
made in either order.
-/

namespace Nonbonded

variable {α : Type} {law : PairLaw α}

/-- The fields of the entry of a pair of types. -/
inductive EntryField where
  | params
  | cutoff
  | onset

/-- A field of an entry and what it is set to. -/
inductive Setting (law : PairLaw α) where
  | params (value : law.Params)
  | cutoff (value : α)
  | onset (value : α)

namespace Setting

/-- The field that is set. -/
def field : Setting law → EntryField
  | params _ => .params
  | cutoff _ => .cutoff
  | onset _ => .onset

/-- The parameters that are given, if these are set. -/
def params? : Setting law → Option law.Params
  | params value => some value
  | cutoff _ | onset _ => none

/-- The cutoff that is given, if this is set. -/
def cutoff? : Setting law → Option α
  | cutoff value => some value
  | params _ | onset _ => none

/-- The onset that is given, if this is set. -/
def onset? : Setting law → Option α
  | onset value => some value
  | params _ | cutoff _ => none

variable [Scalar α]

/-- Whether a setting is accepted for types in range. -/
def isValid : Setting law → Bool
  | params _ => true
  | cutoff value | onset value => Radius.isValid value

/-- Put a setting in place; of a radius the square is kept. -/
def assign (setting : Setting law) (entry : PairEntry law) : PairEntry law :=
  match setting with
  | params value => { entry with params := value }
  | cutoff value => { entry with rcutsq := value * value }
  | onset value => { entry with ronsq := value * value }

/-- Settings of different fields can be put in place in either order. -/
theorem assign_comm {first second : Setting law} (different : first.field ≠ second.field)
    (entry : PairEntry law) :
    second.assign (first.assign entry) = first.assign (second.assign entry) := by
  cases first <;> cases second <;> first | rfl | exact absurd rfl different

end Setting

/-! ## Histories -/

/-- Assignments to pairs of types, the earliest first. -/
abbrev SettingHistory (law : PairLaw α) :=
  List (Sym2 Nat × Setting law)

/-- What the last assignment to a pair made it, among those of the field that
is read. -/
def SettingHistory.last? {β : Type} (made : SettingHistory law) (read : Setting law → Option β)
    (pair : Sym2 Nat) : Option β :=
  (made.filterMap fun assignment =>
    if assignment.1 = pair then read assignment.2 else none).getLast?

/-- The assignments of a resolved entry, in the order in which they are
made. -/
def ResolvedPair.assignments (pair : ResolvedPair α law.Params) : SettingHistory law :=
  (s(pair.type1, pair.type2), .params pair.params) ::
    (s(pair.type1, pair.type2), .cutoff pair.cutoff) ::
      (pair.onset.map fun value => (s(pair.type1, pair.type2), .onset value)).toList

variable [Scalar α]

/-- The entry of a pair of types once the assignments of a history were
made. -/
def PairEntry.afterHistory (entry : PairEntry law) (made : SettingHistory law) (pair : Sym2 Nat) :
    PairEntry law where
  rcutsq := ((made.last? Setting.cutoff? pair).map fun last => last * last).getD entry.rcutsq
  ronsq := ((made.last? Setting.onset? pair).map fun last => last * last).getD entry.ronsq
  params := (made.last? Setting.params? pair).getD entry.params

namespace PairEntry

theorem afterHistory_append (entry : PairEntry law) (first second : SettingHistory law)
    (pair : Sym2 Nat) :
    entry.afterHistory (first ++ second) pair =
      (entry.afterHistory first pair).afterHistory second pair := by
  have params := getD_map_getLast?_append (id : law.Params → law.Params)
  simp only [Option.map_id_fun, id_eq] at params
  simp only [afterHistory, SettingHistory.last?, List.filterMap_append, getD_map_getLast?_append,
    params]

/-- One assignment puts its setting in place for its own pair. -/
theorem afterHistory_singleton (contents : Sym2 Nat → PairEntry law) (own : Sym2 Nat)
    (setting : Setting law) :
    (fun pair => (contents pair).afterHistory [(own, setting)] pair) =
      Function.update contents own (setting.assign (contents own)) := by
  funext pair
  by_cases same : own = pair
  · subst same
    rw [Function.update_self]
    cases setting <;> simp [afterHistory, SettingHistory.last?, Setting.assign, Setting.params?,
      Setting.cutoff?, Setting.onset?]
  · rw [Function.update_of_ne (Ne.symm same)]
    simp [afterHistory, SettingHistory.last?, same]

/-- The assignments of resolved entries give a pair the settings of the entries
that name it. -/
theorem afterHistory_assignments (entry : PairEntry law)
    (settings : List (ResolvedPair α law.Params)) (pair : Sym2 Nat) :
    entry.afterHistory (settings.flatMap (·.assignments)) pair =
      entry.withSettings (settings.filter fun resolved =>
        s(resolved.type1, resolved.type2) = pair) := by
  induction settings generalizing entry with
  | nil => rfl
  | cons first rest inductionHypothesis =>
      rw [List.flatMap_cons, afterHistory_append, inductionHypothesis]
      by_cases named : s(first.type1, first.type2) = pair
      · rw [List.filter_cons_of_pos (by simpa using named), ← List.singleton_append,
          withSettings_append]
        congr 1
        cases given : first.onset <;>
          simp [afterHistory, SettingHistory.last?, ResolvedPair.assignments, withSettings,
            Setting.params?, Setting.cutoff?, Setting.onset?, named, given]
      · rw [List.filter_cons_of_neg (by simpa using named)]
        congr 1
        cases given : first.onset <;>
          simp [afterHistory, SettingHistory.last?, ResolvedPair.assignments, named, given]

end PairEntry

namespace Potential

variable {ν : Type} {potential : Potential law ν} {n : Nat} {contents : Sym2 Nat → PairEntry law}

/-! ## Setters -/

/-- Call the setter of a field. -/
def set (potential : Potential law ν) (type1 type2 : Nat) :
    Setting law → Reply (Error α) Unit (Potential law ν)
  | .params value => potential.setParams type1 type2 value
  | .cutoff value => potential.setCutoff type1 type2 value
  | .onset value => potential.setOnset type1 type2 value

/-- A setting is acceptable for a pair of types when it is valid and the types
are in range. -/
structure Fits (n type1 type2 : Nat) (setting : Setting law) : Prop where
  valid : setting.isValid = true
  type1_lt : type1 < n
  type2_lt : type2 < n

theorem set_of_fits {type1 type2 : Nat} {setting : Setting law}
    (fits : Fits potential.typeCount type1 type2 setting) :
    potential.set type1 type2 setting =
      .done () (potential.adjust type1 type2 setting.assign) := by
  have updated := updateEntry_of_lt (α := α) fits.type1_lt fits.type2_lt setting.assign
  cases setting with
  | params value => exact updated
  | cutoff value => exact (if_pos fits.valid).trans updated
  | onset value => exact (if_pos fits.valid).trans updated

omit [Scalar α] in
theorem updateEntry_of_outside {type1 type2 : Nat} (counted : potential.typeCount = n)
    (outside : n ≤ type1 ∨ n ≤ type2) (change : PairEntry law → PairEntry law) :
    (potential.updateEntry type1 type2 change : Reply (Error α) Unit (Potential law ν)) =
      .refuse (.invalidType (.invalidType type1 type2 n)) potential := by
  subst counted
  rw [updateEntry, TypePair.Table.update, (TypePair.Table.place?_eq_none_iff _ _ _).2 outside]
  rfl

/-- The error with which a setting is refused depends on the number of types
only. -/
theorem exists_set_refuse {type1 type2 : Nat} {setting : Setting law}
    (unfit : ¬Fits n type1 type2 setting) :
    ∃ error, ∀ potential : Potential law ν, potential.typeCount = n →
      potential.set type1 type2 setting = .refuse error potential := by
  by_cases valid : setting.isValid = true
  · have outside : n ≤ type1 ∨ n ≤ type2 := by
      by_contra inside
      exact unfit ⟨valid, by omega, by omega⟩
    use .invalidType (.invalidType type1 type2 n)
    intro potential counted
    have refused := updateEntry_of_outside (α := α) counted outside setting.assign
    cases setting with
    | params value => exact refused
    | cutoff value => exact (if_pos valid).trans refused
    | onset value => exact (if_pos valid).trans refused
  · cases setting with
    | params value => exact absurd rfl valid
    | cutoff value => exact ⟨_, fun potential _ => if_neg valid⟩
    | onset value => exact ⟨_, fun potential _ => if_neg valid⟩

/-- A setting is made, or it is refused and the potential left as it is. -/
theorem set_cases (potential : Potential law ν) (type1 type2 : Nat) (setting : Setting law) :
    (Fits potential.typeCount type1 type2 setting ∧
      potential.set type1 type2 setting =
        .done () (potential.adjust type1 type2 setting.assign)) ∨
    (¬Fits potential.typeCount type1 type2 setting ∧
      ∃ error, potential.set type1 type2 setting = .refuse error potential) := by
  by_cases fits : Fits potential.typeCount type1 type2 setting
  · exact .inl ⟨fits, set_of_fits fits⟩
  · rcases exists_set_refuse fits with ⟨error, refused⟩
    exact .inr ⟨fits, error, refused potential rfl⟩

@[simp]
theorem typeCount_set (potential : Potential law ν) (type1 type2 : Nat) (setting : Setting law) :
    (potential.set type1 type2 setting).state.typeCount = potential.typeCount := by
  rcases set_cases potential type1 type2 setting with ⟨-, made⟩ | ⟨-, error, refused⟩
  · rw [made, Reply.state_done, typeCount_adjust]
  · rw [refused, Reply.state_refuse]

/-! ## Setters in either order -/

omit [Scalar α] in
theorem adjust_comm {a b c d : Nat} {first second : PairEntry law → PairEntry law}
    (ha : a < potential.typeCount) (hb : b < potential.typeCount) (hc : c < potential.typeCount)
    (hd : d < potential.typeCount)
    (independent : s(a, b) ≠ s(c, d) ∨ ∀ entry, second (first entry) = first (second entry)) :
    (potential.adjust a b first).adjust c d second =
      (potential.adjust c d second).adjust a b first := by
  have tables := TypePair.Table.state_update_comm ha hb hc hd independent
  simp only [adjust, tables]

/-- Setters for different pairs or different fields can be called in either
order. -/
theorem set_comm {a b c d : Nat} {first second : Setting law}
    (different : s(a, b) ≠ s(c, d) ∨ first.field ≠ second.field) :
    ((potential.set a b first).state.set c d second).state =
      ((potential.set c d second).state.set a b first).state := by
  rcases set_cases potential a b first with ⟨fits, made⟩ | ⟨unfit, error, refused⟩
  · rcases set_cases potential c d second with ⟨fitsToo, madeToo⟩ | ⟨unfitToo, error, refusedToo⟩
    · rw [made, madeToo, Reply.state_done, Reply.state_done, set_of_fits (by simpa using fitsToo),
        set_of_fits (by simpa using fits)]
      exact adjust_comm fits.type1_lt fits.type2_lt fitsToo.type1_lt fitsToo.type2_lt
        (different.imp_right Setting.assign_comm)
    · rcases exists_set_refuse unfitToo with ⟨_, alwaysRefused⟩
      rw [refusedToo, Reply.state_refuse, alwaysRefused _ (by simp), Reply.state_refuse]
  · rcases exists_set_refuse unfit with ⟨_, alwaysRefused⟩
    rw [refused, Reply.state_refuse, alwaysRefused _ (by simp), Reply.state_refuse]

/-- What a setter answers does not depend on the settings made before. -/
theorem answer_set_set (potential : Potential law ν) (a b c d : Nat) (first second : Setting law) :
    ((potential.set a b first).state.set c d second).answer =
      (potential.set c d second).answer := by
  rcases set_cases potential c d second with ⟨fits, made⟩ | ⟨unfit, error, refused⟩
  · rw [made, set_of_fits (by simpa using fits)]
    rfl
  · rcases exists_set_refuse unfit with ⟨_, alwaysRefused⟩
    rw [alwaysRefused _ (by simp), alwaysRefused _ rfl]
    rfl

/-! ## Commands -/

/-- A call of a setter, or a file to install. -/
inductive Command (law : PairLaw α) where
  | set (type1 type2 : Nat) (setting : Setting law)
  | install (file : ParameterFile α law.Params) (typeNames : Array String)

namespace Command

/-- Whether a potential for a number of types accepts a command. -/
def isValid (typeCount : Nat) : Command law → Bool
  | set type1 type2 setting =>
      setting.isValid && decide (type1 < typeCount) && decide (type2 < typeCount)
  | install file typeNames =>
      decide (typeNames.size = typeCount) && (file.resolve typeNames).isOk

theorem isValid_set_iff {type1 type2 : Nat} {setting : Setting law} :
    (set type1 type2 setting).isValid n = true ↔ Fits n type1 type2 setting := by
  simp only [isValid, Bool.and_eq_true, decide_eq_true_iff]
  constructor
  · rintro ⟨⟨valid, lt1⟩, lt2⟩
    exact ⟨valid, lt1, lt2⟩
  · rintro ⟨valid, lt1, lt2⟩
    exact ⟨⟨valid, lt1⟩, lt2⟩

/-- The assignments of a command, in the order in which they are made. -/
def assignments : Command law → SettingHistory law
  | set type1 type2 setting => [(s(type1, type2), setting)]
  | install file typeNames =>
      match file.resolve typeNames with
      | .ok settings => settings.flatMap (·.assignments)
      | .error _ => []

end Command

/-- The assignments of a command that is accepted are valid one by one. -/
theorem Command.isValid_of_mem_assignments {command : Command law}
    (accepted : command.isValid n = true) :
    ∀ assignment ∈ command.assignments, assignment.2.isValid = true := by
  cases command with
  | set type1 type2 setting =>
      simpa [assignments] using (isValid_set_iff.1 accepted).valid
  | install file typeNames =>
      simp only [assignments]
      split
      · next settings resolved =>
          intro assignment made
          rcases List.mem_flatMap.1 made with ⟨pair, member, ofPair⟩
          have settable := ParameterFile.settable_of_resolve resolved pair member
          rcases List.mem_cons.1 ofPair with rfl | ofPair
          · rfl
          rcases List.mem_cons.1 ofPair with rfl | ofPair
          · exact settable.cutoff
          · rcases Option.map_eq_some_iff.1 (Option.mem_toList.1 ofPair) with ⟨value, given, rfl⟩
            exact settable.onset value given
      · simp

/-- Carry a command out. -/
def configure (potential : Potential law ν) :
    Command law → Reply (Error α) Unit (Potential law ν)
  | .set type1 type2 setting => potential.set type1 type2 setting
  | .install file typeNames => potential.applyFile file typeNames

/-- The potential that a sequence of commands leaves. -/
def configureAll (potential : Potential law ν) (commands : List (Command law)) : Potential law ν :=
  commands.foldl (fun potential command => (potential.configure command).state) potential

/-- What a command assigns that a potential accepts; nothing when it is
refused. -/
def assignedBy (potential : Potential law ν) (command : Command law) : SettingHistory law :=
  match (potential.configure command).answer with
  | .ok _ => command.assignments
  | .error _ => []

/-- What the accepted commands of a sequence assign, in order. -/
def history (potential : Potential law ν) : List (Command law) → SettingHistory law
  | [] => []
  | command :: rest =>
      potential.assignedBy command ++ (potential.configure command).state.history rest

/-- A new potential holds unset entries. -/
theorem exists_create (law : PairLaw α) (small : n < 2 ^ 32) (source : ν) :
    ∃ start, create law n source = .ok start ∧
      start.table.Holds n fun _ => PairEntry.unset law := by
  rcases TypePair.Table.holds_create small (PairEntry.unset law) with ⟨table, created, holds⟩
  exact ⟨_, bind_eq_ok_iff.2 ⟨table, created, rfl⟩, holds⟩

theorem holds_adjust (holds : potential.table.Holds n contents) (type1 type2 : Nat)
    (setting : Setting law) :
    (potential.adjust type1 type2 setting.assign).table.Holds n fun pair =>
      (contents pair).afterHistory [(s(type1, type2), setting)] pair := by
  rw [PairEntry.afterHistory_singleton]
  exact holds.write (.update type1 type2 setting.assign)

theorem FileInstalled.holds {before after : Potential law ν} {mode : ShiftMode}
    {settings : List (ResolvedPair α law.Params)}
    (installed : FileInstalled before after mode settings)
    (holds : before.table.Holds n contents) :
    after.table.Holds n fun pair =>
      (contents pair).afterHistory (settings.flatMap (·.assignments)) pair := by
  have countedBefore : before.typeCount = n := holds.typeCount
  have counted : after.table.typeCount = n := installed.typeCount.trans countedBefore
  rw [← counted]
  apply TypePair.Table.holds_of_stored
  intro a b ha hb
  apply (TypePair.Table.tryGet_eq_ok_iff ha hb).1
  rw [counted] at ha hb
  rcases installed.entry a (countedBefore ▸ ha) b (countedBefore ▸ hb) with ⟨entry, held, changed⟩
  cases (holds.tryGet a b ha hb).symm.trans held
  rw [changed, PairEntry.afterHistory_assignments]

/-- A command is accepted and its assignments are made, or it is refused and
the potential left as it is. -/
theorem configure_cases (holds : potential.table.Holds n contents) (command : Command law) :
    (command.isValid n = true ∧ (∃ after, potential.configure command = .done () after ∧
      after.table.Holds n fun pair => (contents pair).afterHistory command.assignments pair)) ∨
    (command.isValid n = false ∧
      ∃ error, potential.configure command = .refuse error potential) := by
  have counted : potential.typeCount = n := holds.typeCount
  cases command with
  | set type1 type2 setting =>
      rw [Bool.eq_false_iff, ne_eq, Command.isValid_set_iff]
      rcases set_cases potential type1 type2 setting with ⟨fits, made⟩ | ⟨unfit, refused⟩
      · exact .inl ⟨counted ▸ fits, _, made, holds_adjust holds type1 type2 setting⟩
      · exact .inr ⟨counted ▸ unfit, refused⟩
  | install file typeNames =>
      rw [Bool.eq_false_iff]
      rcases applyFile_cases potential file typeNames with
        ⟨error, refused, reason⟩ | ⟨settings, between, applied, sized, resolved, settable,
          installed⟩
      · refine .inr ⟨?_, error, refused⟩
        rcases reason with different | ⟨_, failed⟩
        · simp [Command.isValid, ← counted, different]
        · simp [Command.isValid, failed, Except.isOk, Except.toBool]
      · refine .inl ⟨?_, _, applied, ?_⟩
        · simp [Command.isValid, sized, counted, resolved, Except.isOk, Except.toBool]
        · simp only [Command.assignments, resolved]
          exact (installed.fileInstalled settable file.shiftMode).holds holds

/-- The history of a sequence of commands is made by those that are valid. -/
theorem history_eq_flatMap (holds : potential.table.Holds n contents)
    (commands : List (Command law)) :
    potential.history commands =
      (commands.filter fun command => command.isValid n).flatMap (·.assignments) := by
  induction commands generalizing potential contents with
  | nil => rfl
  | cons command rest inductionHypothesis =>
      rw [history, assignedBy]
      rcases configure_cases holds command with
        ⟨valid, after, made, holdsAfter⟩ | ⟨invalid, error, refused⟩
      · rw [made, List.filter_cons_of_pos valid, List.flatMap_cons]
        exact congrArg _ (inductionHypothesis holdsAfter)
      · rw [refused, List.filter_cons_of_neg (by simpa using invalid)]
        exact inductionHypothesis holds

theorem isValid_of_mem_history (holds : potential.table.Holds n contents)
    (commands : List (Command law)) :
    ∀ assignment ∈ potential.history commands, assignment.2.isValid = true := by
  rw [history_eq_flatMap holds]
  intro assignment made
  rcases List.mem_flatMap.1 made with ⟨command, member, assigned⟩
  exact Command.isValid_of_mem_assignments (List.mem_filter.1 member).2 assignment assigned

theorem holds_configure (holds : potential.table.Holds n contents) (command : Command law) :
    (potential.configure command).state.table.Holds n fun pair =>
      (contents pair).afterHistory (potential.assignedBy command) pair := by
  rcases configure_cases holds command with ⟨-, after, made, holdsAfter⟩ | ⟨-, error, refused⟩
  · rw [assignedBy, made]
    exact holdsAfter
  · rw [assignedBy, refused]
    exact holds

/-- After a sequence of commands every field holds what was assigned to it
last. -/
theorem holds_configureAll (holds : potential.table.Holds n contents)
    (commands : List (Command law)) :
    (potential.configureAll commands).table.Holds n fun pair =>
      (contents pair).afterHistory (potential.history commands) pair := by
  induction commands generalizing potential contents with
  | nil => exact holds
  | cons command rest inductionHypothesis =>
      simp only [history, PairEntry.afterHistory_append]
      exact inductionHypothesis (holds_configure holds command)

end Potential

end Nonbonded
