import Nonbonded.Text.Digits
import Nonbonded.Toml.Layout

/-!
# Quoted strings

Strings in double quotes know escapes, strings in single quotes do not; each
may stand in one or in three quotes, and only the latter may span lines.  A
line end right after three opening quotes is dropped, one or two quotes may
stand right before three closing quotes, and in double quotes a backslash at
the end of a line joins it to the next text.

Every reader of this module starts behind the opening quotes.
-/

namespace Nonbonded.Toml

/-- The character with a code point written in a fixed number of hexadecimal
digits. -/
def codePoint? (width : Nat) (text : List Char) : Option Char := do
  let digits := text.take width
  let value ← Text.number? 16 digits
  if digits.length = width ∧ value.isValidChar then some (.ofNat value) else none

/-- The character that an escape stands for, and the number of characters
behind the backslash that belong to it. -/
def escape? : List Char → Option (Char × Nat)
  | 'b' :: _ => some ('\x08', 1)
  | 't' :: _ => some ('\t', 1)
  | 'n' :: _ => some ('\n', 1)
  | 'f' :: _ => some ('\x0c', 1)
  | 'r' :: _ => some ('\r', 1)
  | 'e' :: _ => some ('\x1b', 1)
  | '"' :: _ => some ('"', 1)
  | '\\' :: _ => some ('\\', 1)
  | 'x' :: rest => (codePoint? 2 rest).map (·, 3)
  | 'u' :: rest => (codePoint? 4 rest).map (·, 5)
  | 'U' :: rest => (codePoint? 8 rest).map (·, 9)
  | _ => none

/-- Put a character before what is read next. -/
def prepend (c : Char) : Option (List Char × List Char) → Option (List Char × List Char) :=
  Option.map fun (content, rest) => (c :: content, rest)

/-- A string in single quotes. -/
def literalString : Reader (List Char)
  | [] => none
  | c :: rest =>
      if c = '\'' then some ([], rest)
      else if isPlain c then prepend c (literalString rest)
      else none

/-- A string in double quotes. -/
def basicString : Reader (List Char)
  | [] => none
  | '"' :: rest => some ([], rest)
  | '\\' :: rest => do
      let (c, used) ← escape? rest
      prepend c (basicString (rest.drop used))
  | c :: rest => if isPlain c then prepend c (basicString rest) else none
termination_by text => text.length
decreasing_by all_goals simp; try omega

/-- The text behind a line end at its front, if there is one. -/
def dropLineEnd (text : List Char) : List Char :=
  (lineEnd? text).getD text

/-- The end of a string in three quotes, once the first three quotes in a row
are behind: up to two more belong to the content. -/
def closeQuotes (quote : Char) : List Char → List Char × List Char
  | c :: d :: rest =>
      if c = quote then
        if d = quote then ([quote, quote], rest) else ([quote], d :: rest)
      else ([], c :: d :: rest)
  | [c] => if c = quote then ([quote], []) else ([], [c])
  | [] => ([], [])

/-- The rest of a string in three single quotes. -/
def literalLines : Reader (List Char)
  | [] => none
  | '\'' :: '\'' :: '\'' :: rest => some (closeQuotes '\'' rest)
  | '\n' :: rest => prepend '\n' (literalLines rest)
  | '\r' :: '\n' :: rest => prepend '\r' (prepend '\n' (literalLines rest))
  | c :: rest => if isPlain c then prepend c (literalLines rest) else none

/-- The rest of a string in three double quotes.  The flag tells that a line
has just been joined to what follows, so that blanks and line ends are passed
over. -/
def basicLines (joining : Bool) (text : List Char) : Option (List Char × List Char) :=
  match text with
  | [] => none
  | '"' :: '"' :: '"' :: rest => some (closeQuotes '"' rest)
  | '\\' :: rest =>
      if (lineEnd? (skipBlanks rest)).isSome then basicLines true rest
      else do
        let (c, used) ← escape? rest
        prepend c (basicLines false (rest.drop used))
  | '\n' :: rest => if joining then basicLines true rest else prepend '\n' (basicLines false rest)
  | '\r' :: '\n' :: rest =>
      if joining then basicLines true rest
      else prepend '\r' (prepend '\n' (basicLines false rest))
  | c :: rest =>
      if joining && isBlank c then basicLines true rest
      else if isPlain c then prepend c (basicLines false rest)
      else none
termination_by text.length
decreasing_by all_goals simp; try omega

/-- A string in any quotes, read from its opening quote. -/
def quoted : Reader String := fun text =>
  (content text).map fun (characters, rest) => (.ofList characters, rest)
where
  /-- The characters of a string in any quotes. -/
  content : Reader (List Char)
    | '"' :: '"' :: '"' :: rest => basicLines false (dropLineEnd rest)
    | '\'' :: '\'' :: '\'' :: rest => literalLines (dropLineEnd rest)
    | '"' :: rest => basicString rest
    | '\'' :: rest => literalString rest
    | _ => none

end Nonbonded.Toml
