import Mathlib.Data.List.DropRight
import Mathlib.Data.List.Forall2
import Nonbonded.Text.Blank

/-!
# Texts that are read alike

A reader may look past the white space at the ends of a text, and past the case
of its letters.

White space is that of Unicode, listed here one code point at a time.  What
stands between the white space at the ends is the core of a text.  Every text
has exactly one core, and trimming finds it.  White space added at either end
leaves the core as it is.

Case is that of the letters from A to Z.  Two texts are the same but for case
when lowering these letters makes the same of both.  A letter outside ASCII is
the same as itself only, whatever it may fold to in other alphabets.
-/

namespace Nonbonded.Text

variable {text other core before after : List Char}

/-! ## White space -/

/-- The code points with the Unicode property `White_Space`. -/
def whiteSpace : List Nat :=
  [0x9, 0xa, 0xb, 0xc, 0xd, 0x20, 0x85, 0xa0, 0x1680, 0x2000, 0x2001, 0x2002, 0x2003, 0x2004,
    0x2005, 0x2006, 0x2007, 0x2008, 0x2009, 0x200a, 0x2028, 0x2029, 0x202f, 0x205f, 0x3000]

/-- The character is white space. -/
def IsWhiteSpace (c : Char) : Prop :=
  c.toNat ∈ whiteSpace

instance {c : Char} : Decidable (IsWhiteSpace c) :=
  inferInstanceAs (Decidable (c.toNat ∈ whiteSpace))

theorem isBlank_iff {c : Char} : isBlank c = true ↔ IsWhiteSpace c := by
  simp only [isBlank, blankRanges, IsWhiteSpace, whiteSpace, List.any_cons, List.any_nil,
    Bool.or_eq_true, Bool.and_eq_true, Bool.false_eq_true, decide_eq_true_eq, List.mem_cons,
    List.not_mem_nil, or_false]
  omega

theorem isBlank_eq_false_iff {c : Char} : isBlank c = false ↔ ¬IsWhiteSpace c := by
  rw [← isBlank_iff, Bool.not_eq_true]

/-- The text is white space all through. -/
def AllBlank (text : List Char) : Prop :=
  ∀ c ∈ text, IsWhiteSpace c

instance : Decidable (AllBlank text) :=
  List.decidableBAll IsWhiteSpace text

theorem AllBlank.isBlank_of_mem (blank : AllBlank text) : ∀ c ∈ text, isBlank c = true :=
  fun c member => isBlank_iff.2 (blank c member)

/-! ## The core of a text -/

/-- What stands between the white space at the ends of a text. -/
structure IsCore (text core : List Char) : Prop where
  surrounded : ∃ before after, AllBlank before ∧ AllBlank after ∧ text = before ++ core ++ after
  first : ∀ c ∈ core.head?, ¬IsWhiteSpace c
  last : ∀ c ∈ core.getLast?, ¬IsWhiteSpace c

theorem trim_eq (text : List Char) : trim text = (text.dropWhile isBlank).rdropWhile isBlank :=
  rfl

theorem dropWhile_append_of_allBlank (blank : AllBlank before) (text : List Char) :
    (before ++ text).dropWhile isBlank = text.dropWhile isBlank :=
  List.dropWhile_append_of_pos blank.isBlank_of_mem

theorem rdropWhile_append_of_allBlank (blank : AllBlank after) (text : List Char) :
    (text ++ after).rdropWhile isBlank = text.rdropWhile isBlank := by
  have reversed : AllBlank after.reverse := fun c member => blank c (List.mem_reverse.1 member)
  rw [List.rdropWhile, List.reverse_append, dropWhile_append_of_allBlank reversed]
  rfl

/-- White space at the ends makes no difference to what is left by trimming. -/
theorem trim_surrounded (blankBefore : AllBlank before) (blankAfter : AllBlank after)
    (text : List Char) : trim (before ++ text ++ after) = trim text := by
  rw [trim_eq, trim_eq, List.append_assoc, dropWhile_append_of_allBlank blankBefore,
    List.dropWhile_append]
  split
  · next empty =>
      rw [List.dropWhile_eq_nil_iff.2 blankAfter.isBlank_of_mem, List.isEmpty_iff.1 empty]
  · exact rdropWhile_append_of_allBlank blankAfter _

/-- A text whose ends are not white space is left as it is. -/
theorem trim_eq_self (first : ∀ c ∈ text.head?, ¬IsWhiteSpace c)
    (last : ∀ c ∈ text.getLast?, ¬IsWhiteSpace c) : trim text = text := by
  have front : text.dropWhile isBlank = text := by
    cases text with
    | nil => rfl
    | cons c rest =>
        apply List.dropWhile_cons_of_neg
        rw [isBlank_iff]
        exact first c rfl
  rw [trim_eq, front, List.rdropWhile_eq_self_iff]
  intro nonempty
  rw [isBlank_iff]
  exact last _ (List.getLast_mem_getLast? nonempty)

theorem isCore_trim (text : List Char) : IsCore text (trim text) where
  surrounded := by
    refine ⟨text.takeWhile isBlank, (text.dropWhile isBlank).rtakeWhile isBlank,
      fun c member => isBlank_iff.1 (List.mem_takeWhile_imp member),
      fun c member => isBlank_iff.1 (List.mem_rtakeWhile_imp member), ?_⟩
    rw [trim_eq, List.append_assoc, List.rdropWhile_append_rtakeWhile,
      List.takeWhile_append_dropWhile]
  first := by
    intro c found
    have start := List.head?_dropWhile_not isBlank text
    rcases List.rdropWhile_prefix (p := isBlank) (l := text.dropWhile isBlank) with ⟨rest, whole⟩
    rw [← whole, ← trim_eq, List.head?_append, Option.mem_def.1 found] at start
    exact isBlank_eq_false_iff.1 start
  last := by
    intro c found
    have nonempty : trim text ≠ [] := by
      intro empty
      simp [empty] at found
    have stop := List.rdropWhile_last_not isBlank (text.dropWhile isBlank) nonempty
    rw [List.getLast?_eq_some_getLast nonempty] at found
    cases found
    rwa [← isBlank_iff]

/-- The core of a text is what is left of it by trimming. -/
theorem isCore_iff : IsCore text core ↔ core = trim text := by
  constructor
  · rintro ⟨⟨before, after, blankBefore, blankAfter, rfl⟩, first, last⟩
    rw [trim_surrounded blankBefore blankAfter, trim_eq_self first last]
  · rintro rfl
    exact isCore_trim text

/-! ## The case of letters -/

/-- The same letter from A to Z, as a capital and as a small letter. -/
def IsCapitalOf (capital small : Char) : Prop :=
  ∃ place < 26, capital.toNat = 'A'.toNat + place ∧ small.toNat = 'a'.toNat + place

/-- Two characters are the same, or one letter from A to Z in both its
cases. -/
inductive SameLetter : Char → Char → Prop
  | same (c : Char) : SameLetter c c
  | lowered {capital small : Char} : IsCapitalOf capital small → SameLetter capital small
  | raised {capital small : Char} : IsCapitalOf capital small → SameLetter small capital

/-- Two texts are the same but for the case of letters from A to Z. -/
def SameButCase (text other : List Char) : Prop :=
  List.Forall₂ SameLetter text other

theorem toNat_toLower (c : Char) :
    c.toLower.toNat = if 65 ≤ c.toNat ∧ c.toNat ≤ 90 then c.toNat + 32 else c.toNat := by
  have range : 'A'.val ≤ c.val ∧ c.val ≤ 'Z'.val ↔ 65 ≤ c.toNat ∧ c.toNat ≤ 90 := Iff.rfl
  unfold Char.toLower
  split
  · next capital =>
      rw [if_pos (range.1 capital)]
      have sum : (c.val + ('a'.val - 'A'.val)).toNat = (c.toNat + 32) % 2 ^ 32 :=
        UInt32.toNat_add c.val 32
      have bound := (range.1 capital).2
      exact sum.trans (Nat.mod_eq_of_lt (by omega))
  · next other => rw [if_neg fun inRange => other (range.2 inRange)]

theorem toLower_eq_of_not_capital {c : Char} (other : ¬(65 ≤ c.toNat ∧ c.toNat ≤ 90)) :
    c.toLower = c := by
  apply Char.toNat_inj.1
  rw [toNat_toLower, if_neg other]

theorem isCapitalOf_iff {capital small : Char} :
    IsCapitalOf capital small ↔
      (65 ≤ capital.toNat ∧ capital.toNat ≤ 90) ∧ small.toNat = capital.toNat + 32 := by
  have firstCapital : 'A'.toNat = 65 := rfl
  have firstSmall : 'a'.toNat = 97 := rfl
  constructor
  · rintro ⟨place, bound, isCapital, isSmall⟩
    omega
  · rintro ⟨range, isSmall⟩
    exact ⟨capital.toNat - 65, by omega, by omega, by omega⟩

theorem IsCapitalOf.toLower_eq {capital small : Char} (letter : IsCapitalOf capital small) :
    capital.toLower = small := by
  rcases isCapitalOf_iff.1 letter with ⟨range, isSmall⟩
  apply Char.toNat_inj.1
  rw [toNat_toLower, if_pos range, isSmall]

theorem IsCapitalOf.toLower_small {capital small : Char} (letter : IsCapitalOf capital small) :
    small.toLower = small := by
  rcases isCapitalOf_iff.1 letter with ⟨range, isSmall⟩
  exact toLower_eq_of_not_capital (by omega)

/-- Lowering changes capitals from A to Z and nothing else. -/
theorem toLower_cases (c : Char) : c.toLower = c ∨ IsCapitalOf c c.toLower := by
  by_cases capital : 65 ≤ c.toNat ∧ c.toNat ≤ 90
  · right
    rw [isCapitalOf_iff, toNat_toLower, if_pos capital]
    exact ⟨capital, rfl⟩
  · exact .inl (toLower_eq_of_not_capital capital)

theorem sameLetter_toLower (c : Char) : SameLetter c.toLower c := by
  rcases toLower_cases c with small | letter
  · rw [small]
    exact .same c
  · exact .raised letter

/-- Two characters are the same letter when lowering makes the same of both. -/
theorem toLower_eq_toLower_iff {c d : Char} : c.toLower = d.toLower ↔ SameLetter c d := by
  constructor
  · intro lowered
    rcases toLower_cases c with small | letter
    · rw [← small, lowered]
      exact sameLetter_toLower d
    · rcases toLower_cases d with other | otherLetter
      · rw [lowered, other] at letter
        exact .lowered letter
      · have isSmall := (isCapitalOf_iff.1 letter).2
        rw [lowered, (isCapitalOf_iff.1 otherLetter).2] at isSmall
        have sameCapital : c = d := Char.toNat_inj.1 (Nat.add_right_cancel isSmall.symm)
        rw [sameCapital]
        exact .same d
  · rintro (_ | letter | letter)
    · rfl
    · rw [letter.toLower_eq, letter.toLower_small]
    · rw [letter.toLower_eq, letter.toLower_small]

/-- Two texts are the same but for case when lowering makes the same of
both. -/
theorem map_toLower_eq_iff :
    text.map Char.toLower = other.map Char.toLower ↔ SameButCase text other := by
  rw [SameButCase, ← List.forall₂_eq_eq_eq, List.forall₂_map_left_iff, List.forall₂_map_right_iff]
  simp only [toLower_eq_toLower_iff]

/-- Between the space and the end of ASCII there is no white space. -/
theorem isBlank_eq_false {c : Char} (above : 0x20 < c.toNat) (below : c.toNat < 0x80) :
    isBlank c = false := by
  have apart : ∀ place ∈ whiteSpace, place ≤ 0x20 ∨ 0x80 ≤ place := by decide
  rw [isBlank_eq_false_iff]
  intro blank
  have := apart c.toNat blank
  omega

/-- White space has no case. -/
theorem isBlank_toLower (c : Char) : isBlank c.toLower = isBlank c := by
  rcases toLower_cases c with small | letter
  · rw [small]
  · rcases isCapitalOf_iff.1 letter with ⟨range, isSmall⟩
    rw [isBlank_eq_false (c := c) (by omega) (by omega),
      isBlank_eq_false (c := c.toLower) (by omega) (by omega)]

/-- Trimming does not look at case. -/
theorem trim_map_toLower (text : List Char) :
    trim (text.map Char.toLower) = (trim text).map Char.toLower := by
  have front : ∀ text : List Char,
      (text.map Char.toLower).dropWhile isBlank = (text.dropWhile isBlank).map Char.toLower := by
    intro text
    rw [List.dropWhile_map]
    congr 2
    funext c
    exact isBlank_toLower c
  rw [trim, front, ← List.map_reverse, front, ← List.map_reverse]
  rfl

/-- A letter in the other case is an ASCII character when the letter is. -/
theorem SameLetter.lt_of_lt {c d : Char} (same : SameLetter c d) (ascii : c.toNat < 128) :
    d.toNat < 128 := by
  rcases same with _ | letter | letter
  · exact ascii
  · rcases isCapitalOf_iff.1 letter with ⟨range, isSmall⟩
    omega
  · rcases isCapitalOf_iff.1 letter with ⟨range, isSmall⟩
    omega

theorem SameButCase.lt_of_lt (same : SameButCase text other) (ascii : ∀ c ∈ text, c.toNat < 128) :
    ∀ c ∈ other, c.toNat < 128 := by
  induction same with
  | nil => nofun
  | cons letter _ inductionHypothesis =>
      rw [List.forall_mem_cons] at ascii ⊢
      exact ⟨letter.lt_of_lt ascii.1, inductionHypothesis ascii.2⟩

end Nonbonded.Text
