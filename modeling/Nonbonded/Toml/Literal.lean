import Nonbonded.Toml.Quoted
import Nonbonded.Toml.Value

/-!
# Bare literals

The values that are written without quotes or brackets: booleans, integers,
floating-point numbers, dates and times.  Each kind has a grammar of its own,
and no text belongs to two of them.
-/

namespace Nonbonded.Toml

/-- A sign and the text behind it; without a sign the number is positive. -/
def sign : List Char → Bool × List Char
  | '-' :: rest => (true, rest)
  | '+' :: rest => (false, rest)
  | text => (false, text)

/-- The text without its underscores, each of which has to stand between two
digits of a base. -/
def dropUnderscores? (base : Nat) : List Char → Option (List Char)
  | [] => some []
  | '_' :: _ => none
  | c :: '_' :: d :: rest =>
      if Text.isDigit base c ∧ Text.isDigit base d then
        (dropUnderscores? base (d :: rest)).map (c :: ·)
      else none
  | c :: rest => (dropUnderscores? base rest).map (c :: ·)

/-- Digits of a base, at least one, with single underscores between them that
are left out. -/
def digitRun? (base : Nat) (text : List Char) : Option (List Char) := do
  let digits ← dropUnderscores? base text
  if digits.isEmpty ∨ !digits.all (Text.isDigit base) then none else return digits

/-- Whether a row of digits begins with a zero that it could do without. -/
def hasLeadingZero (digits : List Char) : Bool :=
  digits.head? == some '0' && digits != ['0']

/-- A whole part: decimal digits without a needless zero at the front. -/
def whole? (text : List Char) : Option (List Char) := do
  let digits ← digitRun? 10 text
  if hasLeadingZero digits then none else return digits

/-- What stands behind the mark of another base: digits of that base, or
nothing, which is an integer without a value. -/
def based? (base : Nat) (text : List Char) : Option IntegerLiteral :=
  if text.isEmpty then some ⟨false, base, []⟩
  else (digitRun? base text).map (⟨false, base, ·⟩)

/-- Whether a character sets a text apart from an integer: a space, or a mark
of floating-point numbers. -/
def isForeign (c : Char) : Bool :=
  c ∈ [' ', '.', 'e', 'E']

/-- What stands for the digits of a decimal integer.  It begins with digits,
and other characters may stand behind the first underscore, so that the integer
has no value; there an underscore stands between two digits of whatever
base. -/
def decimalDigits? (text : List Char) : Option (List Char) :=
  let first := text.takeWhile Char.isDigit
  match text.dropWhile Char.isDigit with
  | [] => whole? first
  | c :: rest =>
      if c = '_' ∧ !(first.isEmpty || first.head? == some '0' || rest.any isForeign) then
        dropUnderscores? 16 text
      else none

/-- An integer: decimal with an optional sign, or hexadecimal, octal or binary
without one. -/
def integer? : List Char → Option IntegerLiteral
  | '0' :: 'x' :: rest => based? 16 rest
  | '0' :: 'o' :: rest => based? 8 rest
  | '0' :: 'b' :: rest => based? 2 rest
  | text =>
      let (negative, text) := sign text
      (decimalDigits? text).map (⟨negative, 10, ·⟩)

/-- Whether a character can belong to a row of digits. -/
def inDigitRun (c : Char) : Bool :=
  c.isDigit || c == '_'

/-- The power of ten behind the letter E, to the end of the text; without the
letter it is zero. -/
def exponent? : List Char → Option Int
  | [] => some 0
  | c :: rest =>
      if c = 'e' ∨ c = 'E' then do
        let (negative, digits) := sign rest
        let value ← Text.number? 10 (← digitRun? 10 digits)
        return if negative then -value else value
      else none

/-- A floating-point number with a fraction, an exponent, or both. -/
def numeral? (text : List Char) : Option Decimal.Numeral := do
  let (negative, text) := sign text
  let whole ← whole? (text.takeWhile inDigitRun)
  let (fraction, rest) ←
    match text.dropWhile inDigitRun with
    | '.' :: rest =>
        (digitRun? 10 (rest.takeWhile inDigitRun)).map
          (·, rest.dropWhile inDigitRun)
    | [] => none
    | rest => some ([], rest)
  let digits ← Text.number? 10 (whole ++ fraction)
  let exponent ← exponent? rest
  return { negative, digits, exponent := exponent - fraction.length }

/-- A floating-point number. -/
def float? (text : List Char) : Option FloatLiteral :=
  let (negative, magnitude) := sign text
  if magnitude = "inf".toList then some (.infinite negative)
  else if magnitude = "nan".toList then some .nan
  else (numeral? text).map .finite

/-- A number of exactly so many digits that lies within bounds. -/
def field (width low high : Nat) : Reader Nat := fun text => do
  let digits := text.take width
  let value ← Text.number? 10 digits
  if digits.length = width ∧ low ≤ value ∧ value ≤ high then return (value, text.drop width)
  else none

/-- The text behind a given character. -/
def after? (c : Char) : List Char → Option (List Char)
  | d :: rest => if d = c then some rest else none
  | [] => none

/-- The number of days of a month. -/
def daysIn (year month : Nat) : Nat :=
  if month = 2 then
    if year % 4 = 0 ∧ (year % 100 ≠ 0 ∨ year % 400 = 0) then 29 else 28
  else if month ∈ [4, 6, 9, 11] then 30
  else 31

/-- The text behind a date that exists. -/
def date? (text : List Char) : Option (List Char) := do
  let (year, text) ← field 4 0 9999 text
  let (month, text) ← field 2 1 12 (← after? '-' text)
  let (_, text) ← field 2 1 (daysIn year month) (← after? '-' text)
  return text

/-- The text behind a fraction of a second, if there is one. -/
def secondFraction? (text : List Char) : Option (List Char) :=
  match text with
  | '.' :: rest =>
      if (rest.takeWhile Char.isDigit).isEmpty then none
      else some (rest.dropWhile Char.isDigit)
  | _ => some text

/-- The text behind a time of day; seconds may be left out, and a leap second
is allowed. -/
def time? (text : List Char) : Option (List Char) := do
  let (_, text) ← field 2 0 23 text
  let (_, text) ← field 2 0 59 (← after? ':' text)
  match text with
  | ':' :: rest =>
      let (_, text) ← field 2 0 60 rest
      secondFraction? text
  | _ => return text

/-- The text behind the offset of a time zone, if there is one. -/
def offset? (text : List Char) : Option (List Char) :=
  match text with
  | [] => some []
  | c :: rest =>
      if c = 'Z' ∨ c = 'z' then some rest
      else if c = '+' ∨ c = '-' then do
        let (_, text) ← field 2 0 23 rest
        let (_, text) ← field 2 0 59 (← after? ':' text)
        return text
      else none

/-- Whether a text is a date, a time, or a date and a time with an optional
offset. -/
def isMoment (text : List Char) : Bool :=
  time? text == some [] ||
    match date? text with
    | none => false
    | some [] => true
    | some (c :: rest) =>
        (c == 'T' || c == 't' || c == ' ') && (time? rest >>= offset?) == some []

/-- The value of a bare literal. -/
def literal? (text : List Char) : Option Value :=
  if text = "true".toList then some (.boolean true)
  else if text = "false".toList then some (.boolean false)
  else if isMoment text then some .moment
  else ((integer? text).map .integer).or ((float? text).map .float)

end Nonbonded.Toml
