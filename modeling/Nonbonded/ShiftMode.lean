import Nonbonded.Interaction
import Nonbonded.Text.Blank

/-!
# Energies at the cutoff

A potential treats its energies at the cutoff in one of three ways: as the law
defines them, shifted so that they vanish at the cutoff, or smoothed between an
onset radius and the cutoff by the XPLOR switching polynomial.  A pair of types
whose onset lies beyond its cutoff is shifted instead of smoothed.  Radii
appear squared throughout.

Each mode has a name, and a few more spellings are read; reading looks past
white space at the ends and past the case of the letters A to Z.
-/

namespace Nonbonded

/-- How energies are treated at the cutoff. -/
inductive ShiftMode where
  | none
  | shift
  | xplor
  deriving DecidableEq

namespace ShiftMode

variable {α : Type} [Scalar α]

/-- The factor on the energy between the onset and the cutoff: one at the
onset, zero at the cutoff.  The argument `inverse` is the reciprocal of the
cubed window. -/
def switching (rsq rcutsq ronsq inverse : α) : α :=
  (rsq - rcutsq) * (rsq - rcutsq) * (rcutsq + 2 * rsq - 3 * ronsq) * inverse

/-- The derivative of the switching factor with respect to the separation, over
the separation. -/
def switchingSlope (rsq rcutsq ronsq inverse : α) : α :=
  12 * (rsq - ronsq) * (rsq - rcutsq) * inverse

/-- An interaction switched off between onset and cutoff.  The onset has to lie
below the cutoff. -/
def smooth (raw : Interaction α) (rsq rcutsq ronsq : α) : Interaction α :=
  let window := rcutsq - ronsq
  let inverse := 1 / (window * window * window)
  let factor := switching rsq rcutsq ronsq inverse
  { forceOverDistance :=
      factor * raw.forceOverDistance - switchingSlope rsq rcutsq ronsq inverse * raw.energy
    energy := factor * raw.energy }

/-- Whether a law is asked for an energy that vanishes at the cutoff. -/
def shifts (mode : ShiftMode) (rcutsq ronsq : α) : Bool :=
  match mode with
  | .none => false
  | .shift => true
  | .xplor => rcutsq < ronsq

/-- Whether an interaction is smoothed at a separation. -/
def smooths (mode : ShiftMode) (rsq rcutsq ronsq : α) : Bool :=
  match mode with
  | .xplor => ronsq ≤ rsq && ronsq ≤ rcutsq
  | _ => false

/-- Smooth an interaction where the mode asks for it. -/
def apply (mode : ShiftMode) (raw : Interaction α) (rsq rcutsq ronsq : α) : Interaction α :=
  if mode.smooths rsq rcutsq ronsq then smooth raw rsq rcutsq ronsq else raw

/-- The name of a mode. -/
def name : ShiftMode → String
  | .none => "none"
  | .shift => "shift"
  | .xplor => "xplor"

/-- The mode with exactly this name. -/
def ofName? (text : String) : Option ShiftMode :=
  [.none, .shift, .xplor].find? fun mode => mode.name == text

/-- Every spelling that is read, in lower case. -/
def spellings : List (String × ShiftMode) :=
  [("none", .none), ("no-shift", .none), ("no_shift", .none), ("shift", .shift), ("xplor", .xplor)]

/-- A text that spells no mode. -/
structure ParseError where
  text : String
  deriving DecidableEq

/-- Read a mode, without regard to white space at the ends or to the case of A
to Z. -/
def parse (text : String) : Except ParseError ShiftMode :=
  let key := String.ofList ((Text.trim text.toList).map Char.toLower)
  match spellings.lookup key with
  | some mode => .ok mode
  | Option.none => .error ⟨text⟩

end ShiftMode

end Nonbonded
