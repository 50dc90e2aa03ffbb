import Nonbonded.Proofs.Text.Likeness
import Nonbonded.ShiftMode

/-!
# Reading the name of a mode

Five words name a mode.  A text is read as a mode when its core is one of them,
but for case.  So white space at its ends and the case of its letters make no
difference to what a text is read as, and a core with a character outside ASCII
is never read, even where that character folds to a letter of a word.

A text that is not read is handed back as it was given.
-/

namespace Nonbonded.ShiftMode

open Text (AllBlank IsCore SameButCase)

/-- The words that name a mode, in small letters. -/
inductive IsWordFor : ShiftMode → String → Prop
  | none : IsWordFor .none "none"
  | hyphen : IsWordFor .none "no-shift"
  | underscore : IsWordFor .none "no_shift"
  | shift : IsWordFor .shift "shift"
  | xplor : IsWordFor .xplor "xplor"

namespace IsWordFor

variable {mode : ShiftMode} {word : String}

theorem map_toLower (names : IsWordFor mode word) :
    word.toList.map Char.toLower = word.toList := by
  cases names <;> decide

theorem ascii (names : IsWordFor mode word) : ∀ c ∈ word.toList, c.toNat < 128 := by
  cases names <;> simp

end IsWordFor

variable {text word : String} {mode : ShiftMode}

theorem lookup_spellings_iff : spellings.lookup word = some mode ↔ IsWordFor mode word := by
  constructor
  · intro found
    rcases List.lookup_eq_some_iff.1 found with ⟨before, after, split, -⟩
    have member : (word, mode) ∈ spellings := by simp [split]
    simp only [spellings, List.mem_cons, Prod.mk.injEq, List.not_mem_nil, or_false] at member
    rcases member with ⟨rfl, rfl⟩ | ⟨rfl, rfl⟩ | ⟨rfl, rfl⟩ | ⟨rfl, rfl⟩ | ⟨rfl, rfl⟩ <;>
      constructor
  · intro names
    cases names <;> rfl

/-- The core of a text in small letters, which is what a reader looks at. -/
def key (text : String) : String :=
  String.ofList ((Text.trim text.toList).map Char.toLower)

theorem parse_eq_ok_iff : parse text = .ok mode ↔ IsWordFor mode (key text) := by
  rw [← lookup_spellings_iff, parse, ← key]
  cases spellings.lookup (key text) <;> simp

/-- A text is read as a mode, or handed back. -/
theorem parse_eq_error_iff {error : ParseError} :
    parse text = .error error ↔ error = ⟨text⟩ ∧ ∀ mode, parse text ≠ .ok mode := by
  rw [parse, ← key]
  cases spellings.lookup (key text) with
  | none => simp [eq_comm]
  | some mode => simp

/-- Texts with the same key are read alike. -/
theorem parse_congr {other : String} (same : key other = key text) (mode : ShiftMode) :
    parse other = .ok mode ↔ parse text = .ok mode := by
  rw [parse_eq_ok_iff, parse_eq_ok_iff, same]

/-- A word is the key of a text when it is the core but for case. -/
theorem isWordFor_key_iff :
    IsWordFor mode (key text) ↔
      ∃ core word, IsCore text.toList core ∧ IsWordFor mode word ∧
        SameButCase word.toList core := by
  constructor
  · intro names
    refine ⟨_, _, Text.isCore_trim text.toList, names, Text.map_toLower_eq_iff.1 ?_⟩
    rw [names.map_toLower, key, String.toList_ofList]
  · rintro ⟨core, word, isCore, names, same⟩
    have lowered := Text.map_toLower_eq_iff.2 same
    rw [names.map_toLower, Text.isCore_iff.1 isCore] at lowered
    rw [key, ← lowered, String.ofList_toList]
    exact names

/-- How a text is read. -/
structure IsRead (text : String) : Prop where
  core : ∃! core, IsCore text.toList core
  /-- The core of the text is a word for the mode, but for case. -/
  spelled : ∀ mode, parse text = .ok mode ↔
    ∃ core word, IsCore text.toList core ∧ IsWordFor mode word ∧ SameButCase word.toList core
  surrounded : ∀ before after : String, AllBlank before.toList → AllBlank after.toList → ∀ mode,
    parse (before ++ text ++ after) = .ok mode ↔ parse text = .ok mode
  recased : ∀ other : String, SameButCase text.toList other.toList → ∀ mode,
    parse other = .ok mode ↔ parse text = .ok mode
  foreign : ∀ core, IsCore text.toList core → (∃ c ∈ core, 128 ≤ c.toNat) →
    parse text = .error ⟨text⟩
  /-- A text that is not read is handed back, with its white space and its
  case. -/
  refused : ∀ error, parse text = .error error ↔ error = ⟨text⟩ ∧ ∀ mode, parse text ≠ .ok mode

theorem parse_isRead (text : String) : IsRead text where
  core := ⟨_, Text.isCore_trim text.toList, fun _ => Text.isCore_iff.1⟩
  spelled mode := parse_eq_ok_iff.trans isWordFor_key_iff
  surrounded before after blankBefore blankAfter := by
    apply parse_congr
    rw [key, key, String.toList_append, String.toList_append,
      Text.trim_surrounded blankBefore blankAfter]
  recased other same := by
    apply parse_congr
    rw [key, key, ← Text.trim_map_toLower, ← Text.trim_map_toLower, Text.map_toLower_eq_iff.2 same]
  foreign core isCore := by
    rintro ⟨c, member, foreign⟩
    refine parse_eq_error_iff.2 ⟨rfl, fun mode read => ?_⟩
    rcases isWordFor_key_iff.1 (parse_eq_ok_iff.1 read) with ⟨other, word, isOther, names, same⟩
    rw [Text.isCore_iff.1 isOther, ← Text.isCore_iff.1 isCore] at same
    exact absurd (same.lt_of_lt names.ascii c member) (Nat.not_lt.2 foreign)
  refused _ := parse_eq_error_iff

/-- Between two kinds of white space, in mixed case; and with a long s, which
folds to an s elsewhere. -/
theorem parse_isRead_mixed :
    AllBlank "\u2003\t".toList ∧ AllBlank "\u00a0".toList ∧
      SameButCase "no_shift".toList "No_ShIFt".toList ∧
      parse ("\u2003\t" ++ "No_ShIFt" ++ "\u00a0") = .ok .none ∧
      IsCore "\u017fhift ".toList "\u017fhift".toList ∧
      parse "\u017fhift " = .error ⟨"\u017fhift "⟩ := by
  have blankBefore : AllBlank "\u2003\t".toList := by decide
  have blankAfter : AllBlank "\u00a0".toList := by decide
  have same : SameButCase "no_shift".toList "No_ShIFt".toList :=
    Text.map_toLower_eq_iff.1 (by decide)
  have small : parse "no_shift" = .ok .none :=
    ((parse_isRead "no_shift").spelled .none).2
      ⟨_, _, Text.isCore_iff.2 rfl, .underscore, Text.map_toLower_eq_iff.1 rfl⟩
  have mixed : parse "No_ShIFt" = .ok .none :=
    ((parse_isRead "no_shift").recased "No_ShIFt" same .none).2 small
  have core : IsCore "\u017fhift ".toList "\u017fhift".toList := Text.isCore_iff.2 (by decide)
  exact ⟨blankBefore, blankAfter, same,
    ((parse_isRead "No_ShIFt").surrounded _ _ blankBefore blankAfter .none).2 mixed, core,
    (parse_isRead "\u017fhift ").foreign _ core ⟨'\u017f', List.mem_cons_self, by decide⟩⟩

end Nonbonded.ShiftMode
