import Nonbonded.Toml.Literal
import Nonbonded.Toml.Tree

/-!
# Reading documents

A document is a sequence of lines: blank ones, headers, and assignments of
values to keys.  `parse` gives the table of a text that is a TOML 1.1 document,
and nothing for any other text.  Values may be nested eighty deep, and a dotted
key may have eighty parts.

An assignment on a line of its own ends with the line.  In braces it may be
spread over lines, with comments, wherever there is a blank around the equals
sign.
-/

namespace Nonbonded.Toml

/-- How deep arrays and tables in braces may be nested, and how many parts a
dotted key may have. -/
def maxDepth : Nat :=
  80

/-- Whether a character may stand in a key without quotes. -/
def isBareKey (c : Char) : Bool :=
  c.isAlphanum || c == '-' || c == '_'

/-- One key, bare or in quotes of a single line. -/
def key : Reader String
  | '"' :: rest => (basicString rest).map fun (name, rest) => (.ofList name, rest)
  | '\'' :: rest => (literalString rest).map fun (name, rest) => (.ofList name, rest)
  | text =>
      let name := text.takeWhile isBareKey
      if name.isEmpty then none else some (.ofList name, text.dropWhile isBareKey)

/-- A dotted key: the keys before the last, and the last. -/
def keyPath : Reader (List String × String) := fun text => do
  let (keys, rest) ← separated '.' key text
  if keys.length ≤ maxDepth then return ((keys.dropLast, ← keys.getLast?), rest) else none

/-- Whether a character belongs to a bare literal. -/
def inLiteral (c : Char) : Bool :=
  !(c ∈ [' ', '\t', '\r', '\n', '#', ',', '=', '[', ']', '{', '}'])

/-- Whether a text begins with a word that may continue a bare literal behind a
blank. -/
def beginsWord : List Char → Bool
  | [] => false
  | c :: _ => inLiteral c && c != '"' && c != '\''

/-- A bare literal and the text behind it.  Words with blanks between them are
one literal, as a date and a time are. -/
def bareText : List Char → List Char × List Char
  | [] => ([], [])
  | c :: rest =>
      if inLiteral c || (isBlank c && beginsWord (skipBlanks rest)) then
        let (literal, behind) := bareText rest
        (c :: literal, behind)
      else ([], c :: rest)

/-- The value of a bare literal. -/
def bare : Reader Value := fun text =>
  let (literal, rest) := bareText text
  (literal? literal).map (·, rest)

/-- A string or a bare literal. -/
def scalar : Reader Value := fun text =>
  match text with
  | c :: _ =>
      if c = '"' ∨ c = '\'' then (quoted text).map fun (content, rest) => (.string content, rest)
      else bare text
  | [] => none

/-- A dotted key and its value.  The gaps around the equals sign are passed
over as told. -/
def assignment (skipGap : List Char → Option (List Char)) (value : Reader Value) :
    Reader ((List String × String) × Value) := fun text => do
  let (path, rest) ← keyPath text
  let (assigned, rest) ← value (← skipGap (← after? '=' (← skipGap rest)))
  return ((path, assigned), rest)

/-- The table that some assignments in braces make. -/
def inlineTable? (assignments : List ((List String × String) × Value)) : Option Value :=
  (assignments.foldlM (fun entries ((path, key), assigned) =>
    Entries.assign? path key assigned entries) []).map (.table .inline)

/-- A value with at most so many levels of brackets and braces. -/
def value : Nat → Reader Value
  | 0 => scalar
  | depth + 1 => fun text =>
      match text with
      | '[' :: rest =>
          (itemsUntil ']' (value depth) rest).map fun (items, rest) => (.array false items, rest)
      | '{' :: rest => do
          let (assignments, rest) ←
            itemsUntil '}' (assignment (skipLayout false) (value depth)) rest
          return (← inlineTable? assignments, rest)
      | _ => scalar text

/-- What a line of a document says. -/
inductive Statement where
  /-- A header `[path.key]`. -/
  | table (path : List String) (key : String)
  /-- A header `[[path.key]]`. -/
  | item (path : List String) (key : String)
  /-- An assignment to `path.key`. -/
  | assign (path : List String) (key : String) (value : Value)

/-- The statement of a line that begins with no blank and is not empty, up to
its end. -/
def statement : Reader Statement
  | '[' :: '[' :: rest => do
      let ((path, key), rest) ← keyPath (skipBlanks rest)
      return (.item path key, ← after? ']' (← after? ']' (skipBlanks rest)))
  | '[' :: rest => do
      let ((path, key), rest) ← keyPath (skipBlanks rest)
      return (.table path key, ← after? ']' (skipBlanks rest))
  | text => do
      let (((path, key), assigned), rest) ←
        assignment (fun rest => some (skipBlanks rest)) (value maxDepth) text
      return (.assign path key assigned, rest)

/-- The statements of all lines. -/
def statements (text : List Char) : Option (List Statement) := do
  match ← skipLayout false text with
  | [] => return []
  | c :: line =>
      let (first, rest) ← statement (c :: line)
      let rest ← endOfLine? rest
      if rest.length < text.length then return first :: (← statements rest) else none
termination_by text.length

/-- A document under construction: what it holds, and the header of the open
section. -/
structure Draft where
  entries : Entries
  current : List String

/-- Take up one statement. -/
def Draft.take? (draft : Draft) : Statement → Option Draft
  | .table path key =>
      (draft.entries.openTable? path key).map fun entries => ⟨entries, path ++ [key]⟩
  | .item path key =>
      (draft.entries.openItem? path key).map fun entries => ⟨entries, path ++ [key]⟩
  | .assign path key assigned =>
      (draft.entries.assignIn? draft.current path key assigned).map fun entries =>
        { draft with entries }

/-- The table of a document.  A byte order mark at the front is passed over. -/
def parse (text : String) : Option Value := do
  let text :=
    match text.toList with
    | '\ufeff' :: rest => rest
    | other => other
  let draft ← (← statements text).foldlM Draft.take? ⟨[], []⟩
  return .table .header draft.entries

end Nonbonded.Toml
