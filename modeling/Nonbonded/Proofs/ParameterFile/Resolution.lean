import Nonbonded.ParameterFile
import Nonbonded.Proofs.Faults

/-!
# Resolved files

A file resolves exactly when every entry of it does, and then to the resolved
entries in the order of the file.

A resolved entry is settable: its types are among those that the names count,
and its radii are valid.  Nothing is said here about which entry a failing file
is refused for.
-/

namespace Nonbonded

theorem lt_size_of_lookUp {α : Type} {typeNames : Array String} {name : String} {type : Nat}
    (found : (lookUp typeNames name : Except (ResolveError α) Nat) = .ok type) :
    type < typeNames.size := by
  unfold lookUp at found
  split at found
  · next listed =>
      cases found
      exact (Array.findIdx?_eq_some_iff_findIdx_eq.1 listed).1
  · cases found

/-- The settings of an entry may be set, for a number of types. -/
structure ResolvedPair.Settable {α P : Type} [Scalar α] (pair : ResolvedPair α P)
    (typeCount : Nat) : Prop where
  type1_lt : pair.type1 < typeCount
  type2_lt : pair.type2 < typeCount
  cutoff : Radius.isValid pair.cutoff = true
  onset : ∀ value ∈ pair.onset, Radius.isValid value = true

variable {α P : Type} [Scalar α] {typeNames : Array String}

theorem NamedPair.settable_of_resolve {named : NamedPair α P} {pair : ResolvedPair α P}
    (resolved : named.resolve typeNames = .ok pair) : pair.Settable typeNames.size := by
  unfold resolve at resolved
  split at resolved
  · cases resolved
  · next passed =>
      obtain ⟨type1, found1, resolved⟩ := bind_eq_ok_iff.1 resolved
      obtain ⟨type2, found2, finished⟩ := bind_eq_ok_iff.1 resolved
      cases finished
      have valid : ∀ radius ∈ named.radii, Radius.isValid radius.2 = true := by
        simpa using List.find?_eq_none.1 passed
      refine ⟨lt_size_of_lookUp found1, lt_size_of_lookUp found2, ?_, ?_⟩
      · exact valid (.cutoff, named.cutoff) List.mem_cons_self
      · intro value given
        apply valid (.onset, value)
        simp only [Option.mem_def] at given
        simp [radii, given]

theorem ParameterFile.settable_of_resolve {file : ParameterFile α P}
    {pairs : List (ResolvedPair α P)} (resolved : file.resolve typeNames = .ok pairs) :
    ∀ pair ∈ pairs, pair.Settable typeNames.size := by
  have each := mapM_eq_ok_iff.1 resolved
  clear resolved
  generalize file.pairs = entries at each
  induction each with
  | nil => simp
  | cons first _ inductionHypothesis =>
      exact List.forall_mem_cons.2 ⟨NamedPair.settable_of_resolve first, inductionHypothesis⟩

end Nonbonded
