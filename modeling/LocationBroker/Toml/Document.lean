import LocationBroker.Toml.Draft
import LocationBroker.Toml.Scalar

/-! # Documents

A document is a sequence of statements, one a line: pairs of a key and a value, and headers under
which the pairs after them belong.  `parse?` gives the table that a document describes, with its
keys in the order in which they were stated, or nothing if the text is no document.
-/

namespace LocationBroker.Toml

open Document (Value)
open Text (Scan)
open Text.Scan

/-! ## Keys -/

def isBareChar (c : Char) : Bool := c.isAlphanum || c == '_' || c == '-'

def keyPart : Scan String :=
  basicText <|> literalText <|> String.ofList <$> run1 isBareChar

/-- The greatest number of parts of a key, and of arrays and tables inside one another. -/
def depthLimit : Nat := 79

/-- A key: the parts before the last one, and the last one. -/
def key : Scan (List String × String) := do
  let parts ← separated (spaces *> keyPart <* spaces) (exactly '.')
  if depthLimit < parts.length then failure
  match parts.getLast? with
  | some last => return (parts.dropLast, last)
  | none => failure

/-! ## Values -/

def arrayOf (item : Scan Value) : Scan Value := do
  exactly '['
  let items ← separated? (gap *> item <* gap) (exactly ',')
  if !items.isEmpty then
    let _ ← Scan.optional (exactly ',')
  gap
  exactly ']'
  return .array items

/-- A table on one line, whose pairs have the given values. -/
def inlineTableOf (item : Scan Value) : Scan Value := do
  exactly '\x7b'
  let pairs ← separated? (do
    let (path, last) ← key
    exactly '='
    let v ← spaces *> item <* spaces
    return (path, last, v)) (exactly ',')
  spaces
  exactly '\x7d'
  match Entries.insertPairs pairs [] with
  | some entries => return .table (finishEntries entries)
  | none => failure

/-- A value with at most `depth` arrays and tables inside one another. -/
def value : Nat → Scan Value
  | 0 => scalar
  | depth + 1 => fun s =>
    match s with
    | '[' :: _ => arrayOf (value depth) s
    | '\x7b' :: _ => inlineTableOf (value depth) s
    | _ => scalar s

/-! ## Statements -/

/-- A statement of a document. -/
inductive Statement where
  /-- A value under a dotted key. -/
  | pair (path : List String) (key : String) (v : Value)
  /-- The header of a table. -/
  | table (path : List String) (key : String)
  /-- The header of an element of an array of tables. -/
  | element (path : List String) (key : String)

/-- A header. -/
def header : Scan Statement := fun s =>
  match s with
  | '[' :: '[' :: rest => (do
      let (path, last) ← key
      word [']', ']']
      return Statement.element path last : Scan Statement) rest
  | '[' :: rest => (do
      let (path, last) ← key
      exactly ']'
      return Statement.table path last : Scan Statement) rest
  | _ => none

def pair : Scan Statement := do
  let (path, last) ← key
  exactly '='
  spaces
  let v ← value depthLimit
  return .pair path last v

def line : Scan (Option Statement) := do
  spaces
  match ← peek with
  | none => failure
  | some '\x23' => comment *> lineEnd *> pure none
  | some '\n' => newline *> pure none
  | some '\r' => newline *> pure none
  | some '[' => some <$> header <* lineRest
  | some _ => some <$> pair <* lineRest

/-- The statements of a document, which may begin with a byte order mark. -/
def statements : Scan (List Statement) := do
  let _ ← Scan.optional (exactly '\ufeff')
  let lines ← many line
  spaces
  finished
  return lines.filterMap id

/-! ## Sections -/

/-- The pairs at the front of a sequence of statements. -/
def leadingPairs : List Statement → List (List String × String × Value)
  | .pair path key v :: rest => (path, key, v) :: leadingPairs rest
  | _ => []

/-- Adds the sections of the headers among the statements; pairs belong to the header before
them. -/
def attachSections : List Statement → Entries → Option Entries
  | [], entries => some entries
  | .pair _ _ _ :: rest, entries => attachSections rest entries
  | .table path key :: rest, entries => do
    attachSections rest (← entries.attachTable path key (leadingPairs rest))
  | .element path key :: rest, entries => do
    attachSections rest (← entries.attachElement path key (leadingPairs rest))

def parse? (document : String) : Option (List (String × Value)) := do
  let (all, _) ← statements document.toList
  let top ← Entries.insertPairs (leadingPairs all) []
  return finishEntries (← attachSections all top)

end LocationBroker.Toml
