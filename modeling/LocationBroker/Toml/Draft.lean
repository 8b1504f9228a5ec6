import LocationBroker.Document.Value

/-! # Tables under construction

The statements of a document build its tables bit by bit, and which statements may still add to a
table depends on how the table came about: by a header of its own, by headers of tables inside it,
or by dotted keys.

* `insertPair` adds a value under a dotted key.
* `attachTable` and `attachElement` add the table of a header.

Each of them fails if the statement would define a key a second time.
-/

namespace LocationBroker.Toml

open Document (Value)

/-- How a table came about. -/
inductive Origin where
  /-- By a header of its own. -/
  | header
  /-- By the header of a table inside it. -/
  | superTable
  /-- By dotted keys. -/
  | dotted
  deriving DecidableEq

/-- What a key stands for while the document is read. -/
inductive Draft where
  /-- A value, to which nothing can be added. -/
  | value (v : Value)
  /-- A table. -/
  | table (origin : Origin) (entries : List (String × Draft))
  /-- An array whose elements are tables with headers of their own. -/
  | elements (tables : List (List (String × Draft)))

/-- The entries of a table under construction, in the order in which they were stated. -/
abbrev Entries := List (String × Draft)

namespace Entries

def get? (key : String) (entries : Entries) : Option Draft :=
  (entries.find? fun e => e.1 = key).map (·.2)

def set (key : String) (d : Draft) (entries : Entries) : Entries :=
  entries.map fun e => if e.1 = key then (key, d) else e

def remove (key : String) (entries : Entries) : Entries :=
  entries.filter fun e => e.1 ≠ key

def updateLast (change : Entries → Option Entries) : List Entries → Option (List Entries)
  | [] => none
  | [last] => (change last).map ([·])
  | first :: second :: rest => (updateLast change (second :: rest)).map (first :: ·)

/-- Adds a value under a dotted key.  The keys before the last one lead through tables that came
about by dotted keys, or create them; the last of these tables must not be one of another kind. -/
def insertPair (key : String) (v : Value) : List String → Entries → Option Entries
  | [], entries =>
    match get? key entries with
    | some _ => none
    | none => some (entries ++ [(key, .value v)])
  | p :: path, entries =>
    match get? p entries with
    | none => (insertPair key v path []).map fun es => entries ++ [(p, .table .dotted es)]
    | some (.value _) => none
    | some (.elements tables) =>
      if path.isEmpty then none
      else (updateLast (insertPair key v path) tables).map fun ts => set p (.elements ts) entries
    | some (.table .header _) => none
    | some (.table .superTable es) =>
      if path.isEmpty then none
      else (insertPair key v path es).map fun es => set p (.table .superTable es) entries
    | some (.table .dotted es) =>
      (insertPair key v path es).map fun es => set p (.table .dotted es) entries

/-- Changes the table that a header's keys before its last one lead to; tables that are not there
yet are created for the sake of the table inside them. -/
def descend (change : Entries → Option Entries) : List String → Entries → Option Entries
  | [], entries => change entries
  | p :: path, entries =>
    match get? p entries with
    | none => (descend change path []).map fun es => entries ++ [(p, .table .superTable es)]
    | some (.value _) => none
    | some (.elements tables) =>
      (updateLast (descend change path) tables).map fun ts => set p (.elements ts) entries
    | some (.table origin es) =>
      (descend change path es).map fun es => set p (.table origin es) entries

/-- Adds the pairs of a header's section to a table. -/
def insertPairs (pairs : List (List String × String × Value)) (entries : Entries) :
    Option Entries :=
  pairs.foldlM (fun es p => insertPair p.2.1 p.2.2 p.1 es) entries

/-- Adds the table of a header, unless it is there by other means than the headers of tables
inside it. -/
def attachTable (path : List String) (key : String) (pairs : List (List String × String × Value))
    (entries : Entries) : Option Entries :=
  descend (fun es =>
    match get? key es with
    | none => (insertPairs pairs []).map fun t => es ++ [(key, .table .header t)]
    | some (.table .superTable inner) =>
      (insertPairs pairs inner).map fun t => remove key es ++ [(key, .table .header t)]
    | some _ => none) path entries

/-- Adds a further element to the array of tables of a header. -/
def attachElement (path : List String) (key : String)
    (pairs : List (List String × String × Value)) (entries : Entries) : Option Entries :=
  descend (fun es =>
    match get? key es with
    | none => (insertPairs pairs []).map fun t => es ++ [(key, .elements [t])]
    | some (.elements tables) =>
      (insertPairs pairs []).map fun t => set key (.elements (tables ++ [t])) es
    | some _ => none) path entries

end Entries

/-! ## Finished tables -/

mutual

def Draft.finish : Draft → Value
  | .value v => v
  | .table _ entries => .table (finishEntries entries)
  | .elements tables => .array (finishTables tables)
termination_by structural d => d

def finishEntry : String × Draft → String × Value
  | (key, d) => (key, d.finish)
termination_by structural e => e

def finishEntries : List (String × Draft) → List (String × Value)
  | [] => []
  | e :: rest => finishEntry e :: finishEntries rest
termination_by structural entries => entries

def finishTables : List (List (String × Draft)) → List Value
  | [] => []
  | entries :: rest => .table (finishEntries entries) :: finishTables rest
termination_by structural tables => tables

end

end LocationBroker.Toml
