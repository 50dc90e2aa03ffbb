import Nonbonded.Law.LennardJones
import Nonbonded.NeighborList
import Nonbonded.Potential
import Nonbonded.Proofs.ParameterFile.Resolution
import Nonbonded.Proofs.TypePair.Slots

/-!
# Installing the settings of a file

A file is installed as a whole or not at all.  It is refused only before
anything is touched, for the number of its type names or because it does not
resolve; the entries of a resolved file pass every check of the setters.

Afterwards a pair of types has the parameters and the cutoff of the last entry
that names it, in either order, and the onset of the last of these entries that
states one.  A pair that no entry names keeps its settings, and installing the
file again changes nothing.
-/

namespace Nonbonded

variable {α : Type} [Scalar α] {law : PairLaw α}

/-- The value read off the last item of two lists in a row. -/
theorem getD_map_getLast?_append {β γ : Type} (f : β → γ) (first second : List β) (start : γ) :
    ((first ++ second).getLast?.map f).getD start =
      (second.getLast?.map f).getD ((first.getLast?.map f).getD start) := by
  rw [List.getLast?_append]
  cases second.getLast? <;> rfl

/-- The entry of a pair of types once settings for it were installed in order:
the last parameters, the last cutoff, and the last onset that was given. -/
def PairEntry.withSettings (entry : PairEntry law) (settings : List (ResolvedPair α law.Params)) :
    PairEntry law where
  rcutsq := (settings.getLast?.map fun last => last.cutoff * last.cutoff).getD entry.rcutsq
  ronsq := ((settings.filterMap (·.onset)).getLast?.map fun last => last * last).getD entry.ronsq
  params := (settings.getLast?.map (·.params)).getD entry.params

namespace PairEntry

@[simp]
theorem withSettings_nil (entry : PairEntry law) : entry.withSettings [] = entry :=
  rfl

theorem withSettings_append (entry : PairEntry law)
    (first second : List (ResolvedPair α law.Params)) :
    entry.withSettings (first ++ second) = (entry.withSettings first).withSettings second := by
  simp only [withSettings, List.filterMap_append, getD_map_getLast?_append]

/-- Installing settings a second time changes nothing. -/
theorem withSettings_withSettings (entry : PairEntry law)
    (settings : List (ResolvedPair α law.Params)) :
    (entry.withSettings settings).withSettings settings = entry.withSettings settings := by
  have last : ∀ {β : Type} (items : List β), (items ++ items).getLast? = items.getLast? := by
    intro β items
    rw [List.getLast?_append]
    cases items.getLast? <;> rfl
  rw [← withSettings_append, withSettings, List.filterMap_append, last, last]
  rfl

end PairEntry

namespace Potential

variable {ν : Type} {potential : Potential law ν}

/-! ## One entry -/

/-- The potential with the entry of a pair of types changed. -/
def adjust (potential : Potential law ν) (type1 type2 : Nat)
    (change : PairEntry law → PairEntry law) : Potential law ν :=
  { potential with
    table := (potential.table.update type1 type2 change).state
    computedFor := none }

omit [Scalar α] in
@[simp]
theorem typeCount_adjust (potential : Potential law ν) (type1 type2 : Nat)
    (change : PairEntry law → PairEntry law) :
    (potential.adjust type1 type2 change).typeCount = potential.typeCount :=
  TypePair.Table.typeCount_update _ _ _ _

omit [Scalar α] in
theorem updateEntry_of_lt {type1 type2 : Nat} (lt1 : type1 < potential.typeCount)
    (lt2 : type2 < potential.typeCount) (change : PairEntry law → PairEntry law) :
    (potential.updateEntry type1 type2 change : Reply (Error α) Unit (Potential law ν)) =
      .done () (potential.adjust type1 type2 change) := by
  obtain ⟨value, answered⟩ := TypePair.Table.exists_answer_update lt1 lt2 change
  rw [updateEntry, answered]
  rfl

/-- The setters of a potential answer without an error to the settings of an
entry. -/
structure Accepts (potential : Potential law ν) (pair : ResolvedPair α law.Params) : Prop where
  params : (potential.setParams pair.type1 pair.type2 pair.params).answer = .ok ()
  cutoff : (potential.setCutoff pair.type1 pair.type2 pair.cutoff).answer = .ok ()
  onset : ∀ value ∈ pair.onset, (potential.setOnset pair.type1 pair.type2 value).answer = .ok ()

variable {pair : ResolvedPair α law.Params}

theorem updateRadius_of_valid (settable : pair.Settable potential.typeCount) (radius : Radius)
    {value : α} (valid : Radius.isValid value = true) (change : PairEntry law → PairEntry law) :
    potential.updateRadius radius pair.type1 pair.type2 value change =
      .done () (potential.adjust pair.type1 pair.type2 change) := by
  rw [updateRadius, if_pos valid, updateEntry_of_lt settable.type1_lt settable.type2_lt]

theorem accepts_of_settable (settable : pair.Settable potential.typeCount) :
    potential.Accepts pair where
  params := by rw [setParams, updateEntry_of_lt settable.type1_lt settable.type2_lt]; rfl
  cutoff := by rw [setCutoff, updateRadius_of_valid settable _ settable.cutoff]; rfl
  onset value given := by
    rw [setOnset, updateRadius_of_valid settable _ (settable.onset value given)]
    rfl

/-! ## Several entries -/

/-- A potential comes from another by installing settings in order, read slot
by slot. -/
structure Installed (before after : Potential law ν)
    (settings : List (ResolvedPair α law.Params)) : Prop where
  source : after.source = before.source
  shiftMode : after.shiftMode = before.shiftMode
  results : after.results = before.results
  typeCount : after.typeCount = before.typeCount
  stored : ∀ k : Nat, after.table.values[k]? = before.table.values[k]?.map fun entry =>
    entry.withSettings (settings.filter fun pair =>
      TypePair.slot pair.type1 pair.type2 before.typeCount = k)

theorem installed_nil (potential : Potential law ν) : Installed potential potential [] :=
  ⟨rfl, rfl, rfl, rfl, by simp⟩

theorem Installed.append {before between after : Potential law ν}
    {first second : List (ResolvedPair α law.Params)} (left : Installed before between first)
    (right : Installed between after second) : Installed before after (first ++ second) where
  source := right.source.trans left.source
  shiftMode := right.shiftMode.trans left.shiftMode
  results := right.results.trans left.results
  typeCount := right.typeCount.trans left.typeCount
  stored k := by
    rw [right.stored, left.stored, left.typeCount, Option.map_map, List.filter_append]
    congr 1
    funext entry
    exact (entry.withSettings_append _ _).symm

/-- Adjusting the types of an entry changes what is stored in their slot and
nothing else. -/
theorem stored_adjust (settable : pair.Settable potential.typeCount)
    {change : PairEntry law → PairEntry law} (k : Nat) :
    (potential.adjust pair.type1 pair.type2 change).table.values[k]? =
      if TypePair.slot pair.type1 pair.type2 potential.typeCount = k then
        potential.table.values[k]?.map change
      else potential.table.values[k]? :=
  TypePair.Table.getElem?_update settable.type1_lt settable.type2_lt change k

/-- The settings of an entry that may be set are installed. -/
theorem exists_install (settable : pair.Settable potential.typeCount) :
    ∃ after, potential.install pair = .done () after ∧ Installed potential after [pair] := by
  -- The setters change the same slot one after the other, so the types stay in
  -- range.
  have kept : ∀ {between : Potential law ν}, between.typeCount = potential.typeCount →
      pair.Settable between.typeCount := fun same => same ▸ settable
  rw [install, setParams, updateEntry_of_lt settable.type1_lt settable.type2_lt,
    Reply.andThen_done, setCutoff, updateRadius_of_valid (kept (by simp)) _ settable.cutoff,
    Reply.andThen_done]
  cases given : pair.onset with
  | none =>
      refine ⟨_, rfl, rfl, rfl, rfl, by simp, fun k => ?_⟩
      rw [stored_adjust (kept (by simp)), stored_adjust settable, typeCount_adjust]
      by_cases own : TypePair.slot pair.type1 pair.type2 potential.typeCount = k
      · simp [own, PairEntry.withSettings, given, Function.comp_def]
      · simp [own]
  | some value =>
      have valid := settable.onset value given
      refine ⟨_, updateRadius_of_valid (kept (by simp)) _ valid _, rfl, rfl, rfl, by simp,
        fun k => ?_⟩
      rw [stored_adjust (kept (by simp)), stored_adjust (kept (by simp)), stored_adjust settable,
        typeCount_adjust, typeCount_adjust]
      by_cases own : TypePair.slot pair.type1 pair.type2 potential.typeCount = k
      · simp [own, PairEntry.withSettings, given, Function.comp_def]
      · simp [own]

theorem exists_installAll {settings : List (ResolvedPair α law.Params)}
    (settable : ∀ pair ∈ settings, pair.Settable potential.typeCount) :
    ∃ after, potential.installAll settings = .done () after ∧
      Installed potential after settings := by
  induction settings generalizing potential with
  | nil => exact ⟨potential, rfl, installed_nil potential⟩
  | cons first rest inductionHypothesis =>
      obtain ⟨ofFirst, ofRest⟩ := List.forall_mem_cons.1 settable
      obtain ⟨between, installed, left⟩ := exists_install ofFirst
      rw [← left.typeCount] at ofRest
      obtain ⟨after, installedRest, right⟩ := inductionHypothesis ofRest
      refine ⟨after, ?_, left.append right⟩
      rw [installAll, List.foldl_cons, Reply.andThen_done, installed]
      exact installedRest

/-! ## Files -/

/-- What a file leaves that is installed: its shift mode, no remembered
timestep, and for every pair of types the settings of the entries that name
it. -/
structure FileInstalled (before after : Potential law ν) (mode : ShiftMode)
    (settings : List (ResolvedPair α law.Params)) : Prop where
  source : after.source = before.source
  results : after.results = before.results
  shiftMode : after.shiftMode = mode
  computedFor : after.computedFor = none
  typeCount : after.typeCount = before.typeCount
  entry : ∀ type1 < before.typeCount, ∀ type2 < before.typeCount, ∃ entry,
    before.table.tryGet type1 type2 = .ok entry ∧
      after.table.tryGet type1 type2 = .ok (entry.withSettings (settings.filter fun pair =>
        s(pair.type1, pair.type2) = s(type1, type2)))

theorem Installed.fileInstalled {before after : Potential law ν}
    {settings : List (ResolvedPair α law.Params)} (installed : Installed before after settings)
    (settable : ∀ pair ∈ settings, pair.Settable before.typeCount) (mode : ShiftMode) :
    FileInstalled before (after.setShiftMode mode) mode settings where
  source := installed.source
  results := installed.results
  shiftMode := rfl
  computedFor := rfl
  typeCount := installed.typeCount
  entry type1 lt1 type2 lt2 := by
    have inRange : TypePair.slot type1 type2 before.typeCount < before.table.values.size := by
      rw [before.table.size_values]
      exact TypePair.slot_lt_pairCount lt1 lt2
    have here := Array.getElem?_eq_getElem inRange
    refine ⟨_, (TypePair.Table.tryGet_eq_ok_iff lt1 lt2).2 here, ?_⟩
    have sameSlot : settings.filter (fun pair =>
          TypePair.slot pair.type1 pair.type2 before.typeCount =
            TypePair.slot type1 type2 before.typeCount) =
        settings.filter fun pair => s(pair.type1, pair.type2) = s(type1, type2) := by
      apply List.filter_congr
      intro pair member
      rw [decide_eq_decide]
      exact TypePair.slot_eq_slot_iff (settable pair member).type1_lt
        (settable pair member).type2_lt lt1 lt2
    rw [← installed.typeCount] at lt1 lt2
    apply (TypePair.Table.tryGet_eq_ok_iff lt1 lt2).2
    change after.table.values[TypePair.slot type1 type2 after.typeCount]? = _
    rw [installed.typeCount, installed.stored, here, Option.map_some, sameSlot]

/-- Installing settings again changes nothing. -/
theorem Installed.setShiftMode_eq {before between after : Potential law ν}
    {settings : List (ResolvedPair α law.Params)} {mode : ShiftMode}
    (first : Installed before between settings)
    (second : Installed (between.setShiftMode mode) after settings) :
    after.setShiftMode mode = between.setShiftMode mode := by
  have typeCount : after.table.typeCount = between.table.typeCount := second.typeCount
  have table : after.table = between.table := by
    apply TypePair.Table.eq_of_getElem? typeCount
    intro place
    have again := second.stored place
    change _ = between.table.values[place]?.map _ at again
    rw [again, first.stored, Option.map_map]
    change Option.map _ _ = Option.map _ _
    congr 1
    funext entry
    have sameCount : (between.setShiftMode mode).typeCount = before.typeCount := first.typeCount
    rw [Function.comp_apply, sameCount, PairEntry.withSettings_withSettings]
  have source : after.source = between.source := second.source
  have results : after.results = between.results := second.results
  rw [setShiftMode, setShiftMode, table, source, results]

/-- The two ends of a request to install a file: it is refused before anything
is touched, or all of it is installed. -/
theorem applyFile_cases (potential : Potential law ν) (file : ParameterFile α law.Params)
    (typeNames : Array String) :
    (∃ error, potential.applyFile file typeNames = .refuse error potential ∧
      (typeNames.size ≠ potential.typeCount ∨ ∃ error, file.resolve typeNames = .error error)) ∨
    (∃ settings between, potential.applyFile file typeNames =
        .done () (between.setShiftMode file.shiftMode) ∧
      typeNames.size = potential.typeCount ∧ file.resolve typeNames = .ok settings ∧
      (∀ pair ∈ settings, pair.Settable potential.typeCount) ∧
      Installed potential between settings) := by
  by_cases counted : typeNames.size = potential.typeCount
  · have passed : ¬typeNames.size ≠ potential.typeCount := not_not.2 counted
    cases resolved : file.resolve typeNames with
    | error error =>
        refine .inl ⟨.parameters error, ?_, .inr ⟨error, rfl⟩⟩
        rw [applyFile, if_neg passed, resolved]
    | ok settings =>
        have settable := ParameterFile.settable_of_resolve resolved
        rw [counted] at settable
        obtain ⟨between, installed, changed⟩ := exists_installAll settable
        refine .inr ⟨settings, between, ?_, counted, rfl, settable, changed⟩
        rw [applyFile, if_neg passed, resolved]
        change (potential.installAll settings).andThen _ = _
        rw [installed, Reply.andThen_done]
  · exact .inl ⟨_, if_pos counted, .inl counted⟩

/-- A file that was installed is installed again, and changes nothing. -/
theorem applyFile_setShiftMode {between : Potential law ν} {file : ParameterFile α law.Params}
    {typeNames : Array String} {settings : List (ResolvedPair α law.Params)}
    (counted : typeNames.size = potential.typeCount)
    (resolved : file.resolve typeNames = .ok settings)
    (installed : Installed potential between settings) :
    (between.setShiftMode file.shiftMode).applyFile file typeNames =
      .done () (between.setShiftMode file.shiftMode) := by
  have sameCount : (between.setShiftMode file.shiftMode).typeCount = potential.typeCount :=
    installed.typeCount
  rcases applyFile_cases (between.setShiftMode file.shiftMode) file typeNames with
    ⟨_, _, different | ⟨_, failed⟩⟩ | ⟨again, after, applied, _, resolvedAgain, _, changed⟩
  · exact absurd (counted.trans sameCount.symm) different
  · cases resolved.symm.trans failed
  · cases resolved.symm.trans resolvedAgain
    rw [applied, installed.setShiftMode_eq changed]

/-- A file is refused exactly when its type names are not as many as the types
or it does not resolve, and then nothing has changed.  Otherwise no setter
refuses an entry of it, all of it is installed, and a second time it leaves the
potential as it is. -/
theorem applyFile_all_or_nothing (potential : Potential law ν)
    (file : ParameterFile α law.Params) (typeNames : Array String) :
    ((∃ error, (potential.applyFile file typeNames).answer = .error error) ↔
      typeNames.size ≠ potential.typeCount ∨ ∃ error, file.resolve typeNames = .error error) ∧
    (∀ error, (potential.applyFile file typeNames).answer = .error error →
      (potential.applyFile file typeNames).state = potential) ∧
    ∀ settings, typeNames.size = potential.typeCount → file.resolve typeNames = .ok settings →
      (∀ pair ∈ settings, ∀ between : Potential law ν,
        between.typeCount = potential.typeCount → between.Accepts pair) ∧
      ∃ after, potential.applyFile file typeNames = .done () after ∧
        FileInstalled potential after file.shiftMode settings ∧
        after.applyFile file typeNames = .done () after := by
  rcases applyFile_cases potential file typeNames with
    ⟨error, refused, reason⟩ | ⟨settings, between, applied, counted, resolved, settable, installed⟩
  · rw [refused]
    refine ⟨⟨fun _ => reason, fun _ => ⟨error, rfl⟩⟩, fun _ _ => rfl, ?_⟩
    intro settings counted resolved
    rcases reason with different | ⟨_, failed⟩
    · exact absurd counted different
    · cases resolved.symm.trans failed
  · have accepted : ¬(typeNames.size ≠ potential.typeCount ∨
        ∃ error, file.resolve typeNames = .error error) := by
      rintro (different | ⟨_, failed⟩)
      · exact different counted
      · cases resolved.symm.trans failed
    rw [applied]
    refine ⟨⟨?_, fun refused => absurd refused accepted⟩, ?_, ?_⟩
    · rintro ⟨_, answered⟩
      cases answered
    · rintro _ answered
      cases answered
    · intro same _ resolvedSame
      cases resolved.symm.trans resolvedSame
      refine ⟨?_, _, rfl, installed.fileInstalled settable file.shiftMode,
        applyFile_setShiftMode counted resolved installed⟩
      intro pair member other sameCount
      apply accepts_of_settable
      rw [sameCount]
      exact settable pair member

/-- A file that names one pair of types in both orders, with an onset in the
first entry only. -/
def bothOrders : ParameterFile Float (PairLaw.lennardJones : PairLaw Float).Params where
  shiftMode := .xplor
  pairs := [⟨"A", "B", 2, some 1, ⟨1, 1, 1⟩⟩, ⟨"A", "A", 2.5, none, ⟨1, 1, 0⟩⟩,
    ⟨"B", "A", 3, none, ⟨0.5, 1, 1⟩⟩]

theorem applyFile_bothOrders :
    ∃ start settings, create (PairLaw.lennardJones : PairLaw Float) 2
        (NeighborList.create 3 0.5 .half) = .ok start ∧
      #["A", "B"].size = start.typeCount ∧ bothOrders.resolve #["A", "B"] = .ok settings ∧
      (∀ pair ∈ settings, ∀ between : Potential (PairLaw.lennardJones : PairLaw Float)
          (NeighborList Float),
        between.typeCount = start.typeCount → between.Accepts pair) ∧
      ∃ after, start.applyFile bothOrders #["A", "B"] = .done () after ∧
        FileInstalled start after .xplor settings ∧
        after.applyFile bothOrders #["A", "B"] = .done () after := by
  have evaluated : (do
      let start ← create (PairLaw.lennardJones : PairLaw Float) 2 (NeighborList.create 3 0.5 .half)
      return (start.typeCount, (bothOrders.resolve #["A", "B"]).isOk)) = .ok (2, true) := by
    decide +kernel
  obtain ⟨start, created, evaluated⟩ := bind_eq_ok_iff.1 evaluated
  obtain ⟨counted, resolves⟩ : start.typeCount = 2 ∧
      (bothOrders.resolve #["A", "B"]).isOk = true := by
    simpa using Except.ok.inj evaluated
  cases resolved : bothOrders.resolve #["A", "B"] with
  | error error =>
      rw [resolved] at resolves
      cases resolves
  | ok settings =>
      exact ⟨start, settings, created, counted.symm, rfl,
        (applyFile_all_or_nothing start bothOrders #["A", "B"]).2.2 settings counted.symm resolved⟩

end Potential

end Nonbonded
