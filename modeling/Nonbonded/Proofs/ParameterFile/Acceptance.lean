import Nonbonded.Proofs.ParameterFile.Resolution

/-!
# Which files resolve

An entry of a file can be resolved when its radii are finite and not negative
and both its names occur among the type names.  A file resolves exactly when
all its entries can be, each to the first indices of its names.

Otherwise it is refused for the first entry that cannot be resolved, and for
the first fault of that entry: the cutoff comes before the onset, radii come
before names, and the names come in their order.
-/

namespace Nonbonded

/-- A name stands at an index, and at no smaller one. -/
structure IsFirstIndex (typeNames : Array String) (name : String) (index : Nat) : Prop where
  found : typeNames[index]? = some name
  least : ∀ earlier < index, typeNames[earlier]? ≠ some name

section Names

variable {α : Type} {typeNames : Array String} {name : String} {type : Nat}

theorem findIdx?_eq_some_iff_isFirstIndex :
    typeNames.findIdx? (· == name) = some type ↔ IsFirstIndex typeNames name type := by
  rw [Array.findIdx?_eq_some_iff_getElem]
  constructor
  · rintro ⟨inRange, found, least⟩
    refine ⟨?_, fun earlier below => ?_⟩
    · rw [Array.getElem?_eq_getElem inRange, eq_of_beq found]
    · rw [Array.getElem?_eq_getElem (Nat.lt_trans below inRange), ne_eq, Option.some.injEq]
      exact fun same => least earlier below (beq_iff_eq.2 same)
  · rintro ⟨found, least⟩
    rcases Array.getElem?_eq_some_iff.1 found with ⟨inRange, isName⟩
    refine ⟨inRange, beq_iff_eq.2 isName, fun earlier below same => least earlier below ?_⟩
    rw [Array.getElem?_eq_getElem (Nat.lt_trans below inRange), eq_of_beq same]

theorem findIdx?_eq_none_iff_not_mem :
    typeNames.findIdx? (· == name) = none ↔ name ∉ typeNames := by
  rw [Array.findIdx?_eq_none_iff]
  constructor
  · intro different member
    simpa using different name member
  · intro absent other member
    rw [beq_eq_false_iff_ne]
    exact fun same => absent (same ▸ member)

theorem exists_isFirstIndex (known : name ∈ typeNames) :
    ∃ type, IsFirstIndex typeNames name type := by
  cases found : typeNames.findIdx? (· == name) with
  | none => exact absurd known (findIdx?_eq_none_iff_not_mem.1 found)
  | some type => exact ⟨type, findIdx?_eq_some_iff_isFirstIndex.1 found⟩

theorem lookUp_of_isFirstIndex (first : IsFirstIndex typeNames name type) :
    (lookUp typeNames name : Except (ResolveError α) Nat) = .ok type := by
  rw [lookUp, findIdx?_eq_some_iff_isFirstIndex.2 first]

theorem lookUp_of_not_mem (absent : name ∉ typeNames) :
    (lookUp typeNames name : Except (ResolveError α) Nat) = .error (.unknownType name) := by
  rw [lookUp, findIdx?_eq_none_iff_not_mem.2 absent]

end Names

/-! ## Entries -/

variable {α P : Type} [Scalar α] {typeNames : Array String}

/-- A radius that may be set is finite and not negative. -/
structure Radius.IsAdmissible (value : α) : Prop where
  finite : Scalar.isFinite value = true
  nonneg : 0 ≤ value

theorem Radius.isValid_iff {value : α} : isValid value = true ↔ IsAdmissible value := by
  rw [isValid, Bool.and_eq_true, decide_eq_true_iff]
  exact ⟨fun ⟨finite, nonneg⟩ => ⟨finite, nonneg⟩, fun ⟨finite, nonneg⟩ => ⟨finite, nonneg⟩⟩

theorem Radius.isValid_eq_false_iff {value : α} : isValid value = false ↔ ¬IsAdmissible value := by
  rw [← isValid_iff, Bool.not_eq_true]

namespace NamedPair

variable {named : NamedPair α P} {pair : ResolvedPair α P}

/-- The radii of an entry may be set. -/
structure HasRadii (named : NamedPair α P) : Prop where
  cutoff : Radius.IsAdmissible named.cutoff
  onset : ∀ value ∈ named.onset, Radius.IsAdmissible value

/-- An entry can be resolved. -/
structure Fits (named : NamedPair α P) (typeNames : Array String) : Prop
    extends HasRadii named where
  name1 : named.name1 ∈ typeNames
  name2 : named.name2 ∈ typeNames

omit [Scalar α] in
/-- An entry with its names replaced by the first indices where they stand, and
all else as it is. -/
structure ResolvesTo (named : NamedPair α P) (typeNames : Array String)
    (pair : ResolvedPair α P) : Prop where
  type1 : IsFirstIndex typeNames named.name1 pair.type1
  type2 : IsFirstIndex typeNames named.name2 pair.type2
  cutoff : pair.cutoff = named.cutoff
  onset : pair.onset = named.onset
  params : pair.params = named.params

/-- The first fault of an entry, with what it is found in. -/
inductive FirstFault (named : NamedPair α P) (typeNames : Array String) : ResolveError α → Prop
  | cutoff (bad : ¬Radius.IsAdmissible named.cutoff) :
      FirstFault named typeNames (.invalidRadius .cutoff named.cutoff named.name1 named.name2)
  | onset {value : α} (cutoff : Radius.IsAdmissible named.cutoff)
      (given : named.onset = some value) (bad : ¬Radius.IsAdmissible value) :
      FirstFault named typeNames (.invalidRadius .onset value named.name1 named.name2)
  | name1 (radii : named.HasRadii) (unknown : named.name1 ∉ typeNames) :
      FirstFault named typeNames (.unknownType named.name1)
  | name2 (radii : named.HasRadii) (known : named.name1 ∈ typeNames)
      (unknown : named.name2 ∉ typeNames) :
      FirstFault named typeNames (.unknownType named.name2)

/-- An entry can be resolved or has a first fault. -/
theorem fits_or_firstFault (named : NamedPair α P) (typeNames : Array String) :
    named.Fits typeNames ∨ ∃ error, named.FirstFault typeNames error := by
  by_cases cutoff : Radius.IsAdmissible named.cutoff
  · by_cases onset : ∀ value ∈ named.onset, Radius.IsAdmissible value
    · by_cases known : named.name1 ∈ typeNames
      · by_cases knownToo : named.name2 ∈ typeNames
        · exact .inl ⟨⟨cutoff, onset⟩, known, knownToo⟩
        · exact .inr ⟨_, .name2 ⟨cutoff, onset⟩ known knownToo⟩
      · exact .inr ⟨_, .name1 ⟨cutoff, onset⟩ known⟩
    · rcases Classical.not_forall.1 onset with ⟨value, bad⟩
      rcases Classical.not_imp.1 bad with ⟨given, bad⟩
      exact .inr ⟨_, .onset cutoff given bad⟩
  · exact .inr ⟨_, .cutoff cutoff⟩

theorem find?_radii_of_hasRadii (radii : named.HasRadii) :
    named.radii.find? (fun radius => !Radius.isValid radius.2) = none := by
  simp only [List.find?_eq_none, Bool.not_eq_true', Bool.not_eq_false, Radius.isValid_iff]
  intro radius member
  rcases List.mem_cons.1 member with rfl | isOnset
  · exact radii.cutoff
  · rcases Option.map_eq_some_iff.1 (Option.mem_toList.1 isOnset) with ⟨value, given, rfl⟩
    exact radii.onset value given

theorem resolve_of_resolvesTo (radii : named.HasRadii)
    (resolves : named.ResolvesTo typeNames pair) : named.resolve typeNames = .ok pair := by
  rw [resolve, find?_radii_of_hasRadii radii]
  dsimp only
  rw [lookUp_of_isFirstIndex resolves.type1, lookUp_of_isFirstIndex resolves.type2,
    ← resolves.cutoff, ← resolves.onset, ← resolves.params]
  rfl

theorem resolve_of_firstFault {error : ResolveError α} (fault : named.FirstFault typeNames error) :
    named.resolve typeNames = .error error := by
  cases fault with
  | cutoff bad =>
      simp [resolve, radii, Radius.isValid_eq_false_iff.2 bad]
  | onset cutoff given bad =>
      simp [resolve, radii, given, Radius.isValid_iff.2 cutoff, Radius.isValid_eq_false_iff.2 bad]
  | name1 radii unknown =>
      rw [resolve, find?_radii_of_hasRadii radii]
      dsimp only
      rw [lookUp_of_not_mem unknown]
      rfl
  | name2 radii known unknown =>
      rcases exists_isFirstIndex known with ⟨type, first⟩
      rw [resolve, find?_radii_of_hasRadii radii]
      dsimp only
      rw [lookUp_of_isFirstIndex first, lookUp_of_not_mem unknown]
      rfl

omit [Scalar α] in
theorem exists_resolvesTo (known1 : named.name1 ∈ typeNames) (known2 : named.name2 ∈ typeNames) :
    ∃ pair, named.ResolvesTo typeNames pair := by
  rcases exists_isFirstIndex known1 with ⟨type1, first1⟩
  rcases exists_isFirstIndex known2 with ⟨type2, first2⟩
  exact ⟨{ named with type1, type2 }, first1, first2, rfl, rfl, rfl⟩

theorem resolve_eq_ok_iff :
    named.resolve typeNames = .ok pair ↔
      named.Fits typeNames ∧ named.ResolvesTo typeNames pair := by
  constructor
  · intro resolved
    rcases fits_or_firstFault named typeNames with fits | ⟨error, fault⟩
    · rcases exists_resolvesTo fits.name1 fits.name2 with ⟨other, resolves⟩
      cases resolved.symm.trans (resolve_of_resolvesTo fits.toHasRadii resolves)
      exact ⟨fits, resolves⟩
    · cases resolved.symm.trans (resolve_of_firstFault fault)
  · exact fun ⟨fits, resolves⟩ => resolve_of_resolvesTo fits.toHasRadii resolves

theorem exists_resolve_iff :
    (∃ pair, named.resolve typeNames = .ok pair) ↔ named.Fits typeNames := by
  constructor
  · rintro ⟨pair, resolved⟩
    exact (resolve_eq_ok_iff.1 resolved).1
  · intro fits
    rcases exists_resolvesTo fits.name1 fits.name2 with ⟨pair, resolves⟩
    exact ⟨pair, resolve_of_resolvesTo fits.toHasRadii resolves⟩

theorem resolve_eq_error_iff {error : ResolveError α} :
    named.resolve typeNames = .error error ↔ named.FirstFault typeNames error := by
  constructor
  · intro refused
    rcases fits_or_firstFault named typeNames with fits | ⟨other, fault⟩
    · rcases exists_resolve_iff.2 fits with ⟨pair, resolved⟩
      cases resolved.symm.trans refused
    · cases refused.symm.trans (resolve_of_firstFault fault)
      exact fault
  · exact resolve_of_firstFault

end NamedPair

/-! ## Files -/

/-- A file resolves exactly when each of its entries can be resolved, and then
to these entries in the order of the file, every name replaced by the first
index where it stands and all else as it was.  Otherwise it is refused with the
first fault of the first entry that cannot be resolved. -/
theorem ParameterFile.resolve_verdict (file : ParameterFile α P) (typeNames : Array String) :
    ((∃ pairs, file.resolve typeNames = .ok pairs) ↔
      ∀ named ∈ file.pairs, named.Fits typeNames) ∧
    (∀ pairs, file.resolve typeNames = .ok pairs ↔
      (∀ named ∈ file.pairs, named.Fits typeNames) ∧
        List.Forall₂ (fun named pair => named.ResolvesTo typeNames pair) file.pairs pairs) ∧
    ∀ error, file.resolve typeNames = .error error ↔
      ∃ before named after, file.pairs = before ++ named :: after ∧
        (∀ earlier ∈ before, earlier.Fits typeNames) ∧ named.FirstFault typeNames error := by
  have whole : ∀ pairs, file.resolve typeNames = .ok pairs ↔
      (∀ named ∈ file.pairs, named.Fits typeNames) ∧
        List.Forall₂ (fun named pair => named.ResolvesTo typeNames pair) file.pairs pairs := by
    intro pairs
    rw [resolve, mapM_eq_ok_iff]
    simp only [NamedPair.resolve_eq_ok_iff]
    exact List.forall₂_and_left _ _
  refine ⟨?_, whole, ?_⟩
  · constructor
    · rintro ⟨pairs, resolved⟩
      exact ((whole pairs).1 resolved).1
    · intro fits
      cases resolved : file.resolve typeNames with
      | ok pairs => exact ⟨pairs, rfl⟩
      | error error =>
          rcases mapM_eq_error_iff.1 resolved with ⟨before, named, after, split, -, refused⟩
          have member : named ∈ file.pairs := by simp [split]
          rcases NamedPair.exists_resolve_iff.2 (fits named member) with ⟨pair, found⟩
          cases found.symm.trans refused
  · intro error
    rw [resolve, mapM_eq_error_iff]
    simp only [NamedPair.exists_resolve_iff, NamedPair.resolve_eq_error_iff]

/-- The second entry has a negative onset and an unknown name, the third a
negative cutoff. -/
example :
    let file : ParameterFile Float Unit := ⟨.none, [⟨"B", "A", 2, some 1, ()⟩,
      ⟨"C", "B", 2, some (-1), ()⟩, ⟨"A", "A", -2, none, ()⟩]⟩
    (file.resolve #["A", "B", "B"]).map List.length =
      .error (.invalidRadius .onset (-1) "C" "B") := by
  decide +kernel

end Nonbonded
