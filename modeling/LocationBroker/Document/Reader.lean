import LocationBroker.Document.Mismatch

/-! # Reading values

A reader turns a value of a document into what it stands for, or says why it does not fit.  What is
read does not fix the format that it is written in: files are written in TOML, but constraints,
kinds of buses, policies and descriptors may be handed over in JSON as well.  The two formats differ
in what may name a variant and in how they take arrays that are too long, so a reader is told the
format.

A record is stated as a table of its fields, or as an array of them in the order of declaration.
Fields that the record does not have are ignored.  Of several misfits the first one in the order of
the document is reported, and a missing field only after all stated ones fitted.
-/

namespace LocationBroker.Document

/-- Reads a value of a document in the given format. -/
abbrev Reader (α : Type) := Format → Value → Except Mismatch α

namespace Reader

/-- Reads a text; `wanted` says what it is wanted for. -/
def text (wanted : String) : Reader String
  | _, .string s => .ok s
  | format, v => .error (.wrongType format v wanted)

def string : Reader String := text "a string"

def boolean : Reader Bool
  | _, .boolean b => .ok b
  | format, v => .error (.wrongType format v "a boolean")

def list {α : Type} (item : Reader α) : Reader (List α)
  | format, .array items => items.mapM (item format)
  | format, v => .error (.wrongType format v "a sequence")

def variantNamed {α : Type} (known : List (String × α)) (name : String) : Except Mismatch α :=
  match known.find? fun k => k.1 = name with
  | some k => .ok k.2
  | none => .error (.unknownVariant name (known.map (·.1)))

/-- A variant has no content, which each format writes in its own way. -/
def noContent : Format → Value → Except Mismatch Unit
  | .toml, .table [] => .ok ()
  | .toml, .array [] => .ok ()
  | .toml, _ => .error .variantContent
  | .json, .null => .ok ()
  | .json, v => .error (.wrongType .json v "unit")

/-- Reads one of several names, written as a text or as the only key of a table. -/
def variant {α : Type} (known : List (String × α)) : Reader α
  | _, .string s => variantNamed known s
  | format, .table [(name, content)] =>
    match variantNamed known name with
    | .ok a => (noContent format content).map fun _ => a
    | .error e => .error e
  | .toml, _ => .error .namesNoVariant
  | .json, .table _ => .error .notOneKey
  | .json, v => .error (.wrongType .json v "string or map")

end Reader

/-! ## Records -/

/-- The name of a field, and whether a value fits it. -/
structure Field where
  name : String
  fits : Value → Except Mismatch Unit

/-- A field whose values are read by the given reader. -/
def Field.of {α : Type} (format : Format) (name : String) (reader : Reader α) : Field where
  name := name
  fits v := (reader format v).map fun _ => ()

/-- The stated fields of a record. -/
structure Stated where
  /-- The fields with their values, in the order of the document. -/
  entries : List (String × Value)
  /-- What is wrong if the named field is wanted and not stated. -/
  absent : String → Mismatch
  /-- What is wrong with the record as a whole, if its fields fit. -/
  excess : Option Mismatch := none

namespace Stated

/-- The fields that a value states for a record called `record`. -/
def ofValue (format : Format) (record : String) (names : List String) :
    Value → Except Mismatch Stated
  | .table entries => .ok { entries, absent := .missingField }
  | .datetime => .ok { entries := [], absent := .missingField }
  | .array items => .ok {
      entries := names.zip items
      absent := fun _ => .wrongLength items.length
        (record ++ " with " ++ toString names.length ++ " elements")
      excess :=
        if format = .json ∧ names.length < items.length then
          some (.wrongLength items.length "fewer elements in array")
        else none }
  | v => .error (.wrongType format v record)

def get? (s : Stated) (name : String) : Option Value :=
  lookup name s.entries

/-- The first stated value that does not fit its field. -/
def check (fields : List Field) : List (String × Value) → Except Mismatch Unit
  | [] => .ok ()
  | (name, v) :: rest =>
    match fields.find? fun f => f.name = name with
    | some f =>
      match f.fits v with
      | .ok _ => check fields rest
      | .error e => .error e
    | none => check fields rest

def required {α : Type} (s : Stated) (format : Format) (name : String) (reader : Reader α) :
    Except Mismatch α :=
  match s.get? name with
  | some v => reader format v
  | none => .error (s.absent name)

def optional {α : Type} (s : Stated) (format : Format) (name : String) (reader : Reader α)
    (default : α) : Except Mismatch α :=
  match s.get? name with
  | some v => reader format v
  | none => .ok default

def complete (s : Stated) : Except Mismatch Unit :=
  match s.excess with
  | some e => .error e
  | none => .ok ()

end Stated

end LocationBroker.Document
