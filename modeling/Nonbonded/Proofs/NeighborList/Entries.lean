import Mathlib.Data.List.Basic
import Nonbonded.NeighborList
import Nonbonded.Proofs.PairSum.Range

/-!
# What a scan enters

A scan tests every pair of particles once, from the smaller index, in
lexicographic order.  This module says which list it leaves for each particle:
the partners in increasing order, the larger ones only when a pair is listed
once, and those on either side when it is listed twice.

It follows that the lists of a neighbor list name particles that it has a list
for, whatever it was built from and however it was edited since.
-/

namespace Nonbonded.NeighborList

/-- Whether a scan with the given test enters `j` into the list of `i`. -/
def enters (mode : StorageMode) (test : Nat → Nat → Bool) (i j : Nat) : Bool :=
  (decide (i < j) && test i j) || (decide (mode = .full) && decide (j < i) && test j i)

/-- The partners that a scan of `size` particles enters into the list of
`i`. -/
def partnersOf (mode : StorageMode) (test : Nat → Nat → Bool) (size i : Nat) : List Nat :=
  (List.range size).filter (enters mode test i)

theorem mem_partnersOf {mode : StorageMode} {test : Nat → Nat → Bool} {size i j : Nat} :
    j ∈ partnersOf mode test size i ↔ j < size ∧ enters mode test i j = true := by
  simp [partnersOf]

/-- A scan enters a pair at most once into each list. -/
theorem count_partnersOf {mode : StorageMode} {test : Nat → Nat → Bool} {size i j : Nat}
    (inRange : j < size) :
    (partnersOf mode test size i).count j = if enters mode test i j then 1 else 0 := by
  have nodup : (partnersOf mode test size i).Nodup := List.nodup_range.filter _
  rw [nodup.count]
  simp only [mem_partnersOf, inRange, true_and]

/-- A scan enters a pair according to its test from the smaller index. -/
theorem enters_congr {mode : StorageMode} {test other : Nat → Nat → Bool} {i j : Nat}
    (same : i ≠ j → test (min i j) (max i j) = other (min i j) (max i j)) :
    enters mode test i j = enters mode other i j := by
  rcases Nat.lt_trichotomy i j with below | rfl | above
  · rw [Nat.min_eq_left (Nat.le_of_lt below), Nat.max_eq_right (Nat.le_of_lt below)] at same
    simp [enters, Nat.lt_asymm below, same (Nat.ne_of_lt below)]
  · simp [enters]
  · rw [Nat.min_eq_right (Nat.le_of_lt above), Nat.max_eq_left (Nat.le_of_lt above)] at same
    simp [enters, Nat.lt_asymm above, same (Nat.ne_of_gt above)]

/-- Scans whose tests agree on some partners of a particle list the same of
them. -/
theorem filter_partnersOf_congr {mode : StorageMode} {test other : Nat → Nat → Bool} {size i : Nat}
    {keep : Nat → Bool}
    (same : ∀ j < size, keep j = true → i ≠ j →
      test (min i j) (max i j) = other (min i j) (max i j)) :
    (partnersOf mode test size i).filter keep = (partnersOf mode other size i).filter keep := by
  rw [partnersOf, partnersOf, List.filter_filter, List.filter_filter]
  apply List.filter_congr
  intro j member
  cases kept : keep j with
  | false => rfl
  | true => rw [enters_congr (same j (List.mem_range.1 member) kept)]

/-! ## One pair at a time -/

/-- What a pair adds to the list of `i`. -/
def added (mode : StorageMode) (test : Nat → Nat → Bool) (i : Nat) (pair : Nat × Nat) : List Nat :=
  if test pair.1 pair.2 then
    (if pair.1 = i then [pair.2] else []) ++ (if mode = .full ∧ pair.2 = i then [pair.1] else [])
  else []

/-- Test a pair of particles by their indices and enter it when it passes. -/
def enterIf (mode : StorageMode) (test : Nat → Nat → Bool) (lists : Array (Array Nat))
    (pair : Nat × Nat) : Array (Array Nat) :=
  if test pair.1 pair.2 then enter mode lists pair.1 pair.2 else lists

theorem getElem?_enterIf (mode : StorageMode) (test : Nat → Nat → Bool)
    (lists : Array (Array Nat)) (pair : Nat × Nat) (i : Nat) :
    (enterIf mode test lists pair)[i]? =
      lists[i]?.map (· ++ (added mode test i pair).toArray) := by
  unfold enterIf added
  by_cases passes : test pair.1 pair.2 = true
  · rw [if_pos passes, if_pos passes]
    cases mode with
    | half =>
        rw [enter, Array.getElem?_modify]
        by_cases first : pair.1 = i <;> cases lists[i]? <;> simp [first]
    | full =>
        rw [enter, Array.getElem?_modify, Array.getElem?_modify]
        by_cases first : pair.1 = i <;> by_cases second : pair.2 = i <;>
          cases lists[i]? <;> simp [first, second, ← Array.toList_inj]
  · rw [if_neg passes, if_neg passes]
    simp

theorem getElem?_foldl_enterIf (mode : StorageMode) (test : Nat → Nat → Bool)
    (tested : List (Nat × Nat)) (lists : Array (Array Nat)) (i : Nat) :
    (tested.foldl (enterIf mode test) lists)[i]? =
      lists[i]?.map (· ++ (tested.flatMap (added mode test i)).toArray) := by
  induction tested generalizing lists with
  | nil => simp
  | cons first rest inductionHypothesis =>
      rw [List.foldl_cons, inductionHypothesis, getElem?_enterIf, Option.map_map]
      congr 1
      funext partners
      simp [List.flatMap_cons]

/-! ## All pairs in order -/

theorem mem_pairs {β : Type} {entries : List β} {pair : β × β} (member : pair ∈ pairs entries) :
    pair.1 ∈ entries ∧ pair.2 ∈ entries := by
  induction entries with
  | nil => simp [pairs] at member
  | cons first rest inductionHypothesis =>
      rcases List.mem_append.1 member with inRow | inRest
      · obtain ⟨second, listed, rfl⟩ := List.mem_map.1 inRow
        exact ⟨List.mem_cons_self, List.mem_cons_of_mem first listed⟩
      · exact (inductionHypothesis inRest).imp (List.mem_cons_of_mem first)
          (List.mem_cons_of_mem first)

theorem pairs_map {β γ : Type} (f : β → γ) (entries : List β) :
    pairs (entries.map f) = (pairs entries).map (Prod.map f f) := by
  induction entries with
  | nil => rfl
  | cons first rest inductionHypothesis =>
      simp [pairs, inductionHypothesis, Function.comp_def]

/-- The row of the pairs that begin with `a` adds the larger partners of `a` to
its own list, and `a` to the list of each of them when a pair is listed
twice. -/
theorem flatMap_row (mode : StorageMode) (test : Nat → Nat → Bool) {i a b : Nat} (size : Nat)
    (above : a < b) :
    ((List.range' b size).map (a, ·)).flatMap (added mode test i) =
      if a = i then (List.range' b size).filter (test i)
      else if mode = .full ∧ b ≤ i ∧ i < b + size ∧ test a i then [a] else [] := by
  induction size generalizing b with
  | zero =>
      have empty : ¬(mode = .full ∧ b ≤ i ∧ i < b + 0 ∧ test a i = true) := by omega
      rw [if_neg empty]
      split <;> rfl
  | succ size inductionHypothesis =>
      rw [List.range'_succ, List.map_cons, List.flatMap_cons, inductionHypothesis (by omega)]
      by_cases own : a = i
      · subst own
        by_cases passes : test a b = true <;> simp [added, passes, Nat.ne_of_gt above]
      · simp only [added, own, if_false, List.nil_append]
        rcases Nat.lt_trichotomy b i with below | rfl | above
        · have next : b + 1 ≤ i := below
          have skipped : ¬b = i := Nat.ne_of_lt below
          simp only [skipped, and_false, if_false, ite_self, List.nil_append, next,
            Nat.le_of_lt below, Nat.add_right_comm b 1 size, Nat.add_assoc b size 1]
        · have later : ¬b + 1 ≤ b := Nat.not_succ_le_self b
          have within : b < b + (size + 1) := by omega
          simp only [later, within, Nat.le_refl, false_and, and_false, true_and, and_true,
            if_false, List.append_nil]
          by_cases passes : test a b = true <;> simp only [passes, if_true, if_false, and_true,
            and_false, Bool.false_eq_true]
        · have skipped : ¬b = i := Nat.ne_of_gt above
          have later : ¬b + 1 ≤ i := by omega
          have before : ¬b ≤ i := by omega
          simp only [skipped, later, before, false_and, and_false, if_false, ite_self,
            List.append_nil]

theorem enters_of_lt {mode : StorageMode} {test : Nat → Nat → Bool} {i j : Nat} (below : i < j) :
    enters mode test i j = test i j := by
  simp [enters, below, Nat.lt_asymm below]

theorem enters_of_gt {mode : StorageMode} {test : Nat → Nat → Bool} {i j : Nat} (above : j < i) :
    enters mode test i j = (decide (mode = .full) && test j i) := by
  simp [enters, above, Nat.lt_asymm above]

theorem enters_self (mode : StorageMode) (test : Nat → Nat → Bool) (i : Nat) :
    enters mode test i i = false := by
  simp [enters]

/-- The pairs of an interval of indices add to each list what a filter of the
interval keeps. -/
theorem flatMap_pairs (mode : StorageMode) (test : Nat → Nat → Bool) (i a size : Nat) :
    (pairs (List.range' a size)).flatMap (added mode test i) =
      if a ≤ i ∧ i < a + size then (List.range' a size).filter (enters mode test i) else [] := by
  induction size generalizing a with
  | zero => simp [pairs]
  | succ size inductionHypothesis =>
      rw [List.range'_succ, pairs, List.flatMap_append, flatMap_row mode test size (by omega),
        inductionHypothesis]
      rcases Nat.lt_trichotomy a i with below | same | above
      · -- The list of `i` gets `a` from this row and the other partners from later rows.
        by_cases within : i < a + 1 + size
        · have later : a + 1 ≤ i ∧ i < a + 1 + size := ⟨below, within⟩
          have whole : a ≤ i ∧ i < a + (size + 1) := by omega
          rw [if_neg (Nat.ne_of_lt below), if_pos later, if_pos whole, List.filter_cons,
            enters_of_gt below]
          by_cases first : mode = .full ∧ test a i = true
          · simp [first, later]
          · have skipped : ¬(mode = .full ∧ a + 1 ≤ i ∧ i < a + 1 + size ∧ test a i = true) :=
              fun ⟨full, _, _, passes⟩ => first ⟨full, passes⟩
            have passed : ¬(decide (mode = .full) && test a i) = true := by
              simpa only [Bool.and_eq_true, decide_eq_true_eq] using first
            rw [if_neg skipped, if_neg passed, List.nil_append]
        · have outside : ¬(a ≤ i ∧ i < a + (size + 1)) := by omega
          simp [within, outside, Nat.ne_of_lt below]
      · -- All partners of `i` above it come from this row, and later rows do not concern it.
        subst same
        have later : ¬(a + 1 ≤ a ∧ a < a + 1 + size) := by omega
        have whole : a ≤ a ∧ a < a + (size + 1) := by omega
        rw [if_pos rfl, if_neg later, if_pos whole, List.append_nil, List.filter_cons_of_neg]
        · apply List.filter_congr
          intro j member
          rw [enters_of_lt (by simp at member; omega)]
        · rw [enters_self]
          exact Bool.false_ne_true
      · have own : a ≠ i := by omega
        have row : ¬(mode = .full ∧ a + 1 ≤ i ∧ i < a + 1 + size ∧ test a i = true) := by omega
        have later : ¬(a + 1 ≤ i ∧ i < a + 1 + size) := by omega
        have outside : ¬(a ≤ i ∧ i < a + (size + 1)) := by omega
        rw [if_neg own, if_neg row, if_neg later, if_neg outside]
        rfl

/-! ## The lists of a scan -/

variable {α : Type} [Scalar α]

/-- Whether two particles of a system are nearer than a reach, tested from the
first. -/
def nearAt (reach : α) (system : ParticleSystem α) (i j : Nat) : Bool :=
  match system.positions[i]?, system.positions[j]? with
  | some first, some second => near system.box reach first second
  | _, _ => false

theorem enterIfNear_eq_enterIf (mode : StorageMode) (reach : α) (system : ParticleSystem α)
    (lists : Array (Array Nat)) {pair : (Vec3 α × Nat) × (Vec3 α × Nat)}
    (member : pair ∈ pairs system.positions.toList.zipIdx) :
    enterIfNear mode system.box reach lists pair =
      enterIf mode (nearAt reach system) lists (Prod.map Prod.snd Prod.snd pair) := by
  obtain ⟨first, second⟩ := mem_pairs member
  have atFirst : system.positions[pair.1.2]? = some pair.1.1 := by
    simpa using List.mem_zipIdx_iff_getElem?.1 first
  have atSecond : system.positions[pair.2.2]? = some pair.2.1 := by
    simpa using List.mem_zipIdx_iff_getElem?.1 second
  simp [enterIfNear, enterIf, nearAt, atFirst, atSecond]

/-- A scan is a fold over the pairs of indices. -/
theorem scan_eq_foldl_enterIf (mode : StorageMode) (reach : α) (system : ParticleSystem α) :
    scan mode reach system =
      (pairs (List.range system.size)).foldl (enterIf mode (nearAt reach system))
        (.replicate system.size #[]) := by
  have indices : List.range system.size = system.positions.toList.zipIdx.map Prod.snd := by
    rw [List.zipIdx_map_snd, List.range_eq_range', Array.length_toList]
    rfl
  rw [indices, pairs_map, List.foldl_map, scan]
  exact List.foldl_ext _ _ _ fun lists _ member =>
    enterIfNear_eq_enterIf mode reach system lists member

/-- The list that a scan leaves for a particle. -/
theorem getElem?_scan (mode : StorageMode) (reach : α) (system : ParticleSystem α) {i : Nat}
    (inRange : i < system.size) :
    (scan mode reach system)[i]? =
      some (partnersOf mode (nearAt reach system) system.size i).toArray := by
  rw [scan_eq_foldl_enterIf, getElem?_foldl_enterIf, List.range_eq_range', flatMap_pairs,
    if_pos (by omega), Array.getElem?_replicate, if_pos inRange, Option.map_some,
    ← List.range_eq_range', partnersOf]
  simp

/-- The nearness test of a list reads the separation of the sum. -/
theorem nearAt_eq {law : PairLaw α} {sum : PairSum law} {i j : Nat} {offset : Vec3 α}
    (separated : sum.separation i j = .ok offset) (reach : α) :
    nearAt reach sum.system i j = decide (offset.normSq < reach * reach) := by
  rcases bind_eq_ok_iff.1 separated with ⟨here, atHere, separated⟩
  rcases bind_eq_ok_iff.1 separated with ⟨there, atThere, separated⟩
  cases separated
  rw [nearAt, entryAt_eq_ok_iff.1 atHere, entryAt_eq_ok_iff.1 atThere]
  rfl

/-- A scan reads nothing of a system but its size and the separations. -/
theorem scan_congr_separation {law : PairLaw α} {left right : PairSum law}
    (size : left.system.size = right.system.size)
    (separation : ∀ i j, left.separation i j = right.separation i j) (mode : StorageMode)
    (reach : α) : scan mode reach left.system = scan mode reach right.system := by
  rw [scan_eq_foldl_enterIf, scan_eq_foldl_enterIf, ← size]
  apply List.foldl_ext
  intro lists pair member
  rcases mem_pairs member with ⟨first, second⟩
  rw [List.mem_range] at first second
  rcases PairSum.exists_separation first second with ⟨offset, separated⟩
  have separatedRight := separated
  rw [separation] at separatedRight
  rw [enterIf, enterIf, nearAt_eq separated, nearAt_eq separatedRight]

/-- The list of a particle after a rebuild. -/
theorem neighbors_build (list : NeighborList α) (timestep : Nat) (system : ParticleSystem α)
    {i : Nat} (inRange : i < system.size) :
    (list.build timestep system).neighbors i =
      .ok (partnersOf list.mode (nearAt list.reach system) system.size i).toArray :=
  entryAt_eq_ok_iff.2 (getElem?_scan list.mode list.reach system inRange)

theorem listed_build (list : NeighborList α) (timestep : Nat) (system : ParticleSystem α) {i : Nat}
    (inRange : i < system.size) :
    listed (list.build timestep system).neighbors i =
      partnersOf list.mode (nearAt list.reach system) system.size i := by
  rw [listed, neighbors_build list timestep system inRange]

/-! ## Lists in range -/

/-- Every list names only particles that have a list. -/
def InRange (list : NeighborList α) : Prop :=
  ∀ partners ∈ list.lists, ∀ j ∈ partners, j < list.lists.size

omit [Scalar α] in
theorem inRange_create (cutoff buffer : α) (mode : StorageMode) :
    (create cutoff buffer mode).InRange := by
  intro partners member
  simp [create] at member

theorem inRange_build (list : NeighborList α) (timestep : Nat) (system : ParticleSystem α) :
    (list.build timestep system).InRange := by
  intro partners member j listed
  obtain ⟨i, inRange, found⟩ := Array.getElem_of_mem member
  have sized : (list.build timestep system).lists.size = system.size := size_scan _ _ _
  rw [sized] at inRange ⊢
  have scanned := getElem?_scan list.mode list.reach system inRange
  rw [Array.getElem?_eq_some_iff] at scanned
  rcases scanned with ⟨_, entered⟩
  rw [← found] at listed
  change j ∈ (scan list.mode list.reach system)[i] at listed
  rw [entered, List.mem_toArray, mem_partnersOf] at listed
  exact listed.1

theorem inRange_refresh {list : NeighborList α} (inRange : list.InRange) (timestep : Nat)
    (system : ParticleSystem α) : (list.refresh timestep system).InRange := by
  unfold refresh
  split
  · exact inRange
  · exact inRange_build list timestep system

/-- Editing a neighbor list keeps its lists in range. -/
theorem inRange_edit {list : NeighborList α} (inRange : list.InRange) (change : Edit α) :
    (list.edit change).InRange := by
  cases change with
  | mode mode => exact inRange
  | radii cutoff buffer => exact inRange
  | forget => exact inRange
  | refresh timestep system => exact inRange_refresh inRange timestep system

theorem inRange_foldl_edit {list : NeighborList α} (inRange : list.InRange)
    (edits : List (Edit α)) : (edits.foldl edit list).InRange := by
  induction edits generalizing list with
  | nil => exact inRange
  | cons first rest inductionHypothesis => exact inductionHypothesis (inRange_edit inRange first)

omit [Scalar α] in
/-- Lists in range cover the particles they were built for. -/
theorem covers_of_inRange {list : NeighborList α} (inRange : list.InRange) :
    Covers list.neighbors list.lists.size := by
  intro i hasList
  exact ⟨list.lists[i], entryAt_of_lt hasList, inRange _ (Array.getElem_mem hasList)⟩

/-- A rebuild covers the particles of its system. -/
theorem covers_build (list : NeighborList α) (timestep : Nat) (system : ParticleSystem α) :
    Covers (list.build timestep system).neighbors system.size := by
  have covers := covers_of_inRange (inRange_build list timestep system)
  rw [build, size_scan] at covers
  exact covers

end Nonbonded.NeighborList
