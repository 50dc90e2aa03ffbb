/-!
# Blanks, line ends and comments

A `Reader` takes a value from the front of a text and gives the rest, or
nothing.  This module holds what may stand between the parts of a document:
blanks within a line, comments, and the two line ends, a line feed alone or
after a carriage return.
-/

namespace Nonbonded.Toml

/-- A partial function that takes a value from the front of a text. -/
abbrev Reader (β : Type) := List Char → Option (β × List Char)

/-- Whether a character is a blank within a line. -/
def isBlank (c : Char) : Bool :=
  c == ' ' || c == '\t'

/-- The text behind its leading blanks. -/
def skipBlanks (text : List Char) : List Char :=
  text.dropWhile isBlank

/-- Whether a character may stand in a comment or a string as it is: anything
but the control characters other than the tab. -/
def isPlain (c : Char) : Bool :=
  c == '\t' || (0x20 ≤ c.toNat && c != '\x7f')

/-- The text behind a line end. -/
def lineEnd? : List Char → Option (List Char)
  | '\n' :: rest => some rest
  | '\r' :: '\n' :: rest => some rest
  | _ => none

/-- The text behind blanks, an optional comment, and a line end or the end of
the text. -/
def endOfLine? (text : List Char) : Option (List Char) :=
  let rest :=
    match skipBlanks text with
    | '#' :: comment => comment.dropWhile isPlain
    | other => other
  if rest.isEmpty then some [] else lineEnd? rest

/-- The text behind blanks, line ends and whole comments.  The flag tells that
the text begins inside a comment, which ends with its line. -/
def skipLayout (inComment : Bool) : List Char → Option (List Char)
  | [] => some []
  | '\n' :: rest => skipLayout false rest
  | '\r' :: '\n' :: rest => skipLayout false rest
  | c :: rest =>
      if inComment then
        if isPlain c then skipLayout true rest else none
      else if isBlank c then skipLayout false rest
      else if c = '#' then skipLayout true rest
      else some (c :: rest)

/-- Items with layout around them, commas between them and perhaps after the
last, up to a closing character.  An item that takes nothing ends the reading
without a result. -/
def itemsUntil {β : Type} (close : Char) (item : Reader β) (text : List Char) :
    Option (List β × List Char) := do
  match ← skipLayout false text with
  | [] => none
  | c :: rest =>
      if c = close then return ([], rest)
      else
        let (first, rest) ← item (c :: rest)
        match ← skipLayout false rest with
        | [] => none
        | d :: rest =>
            if d = close then return ([first], rest)
            else if d = ',' then
              if rest.length < text.length then
                let (others, rest) ← itemsUntil close item rest
                return (first :: others, rest)
              else none
            else none
termination_by text.length

/-- Items with a separator between them, blanks allowed around it. -/
def separated {β : Type} (separator : Char) (item : Reader β) (text : List Char) :
    Option (List β × List Char) := do
  let (first, rest) ← item text
  match skipBlanks rest with
  | c :: more =>
      if c = separator then
        let more := skipBlanks more
        if more.length < text.length then
          let (others, rest) ← separated separator item more
          return (first :: others, rest)
        else none
      else return ([first], rest)
  | [] => return ([first], rest)
termination_by text.length

end Nonbonded.Toml
