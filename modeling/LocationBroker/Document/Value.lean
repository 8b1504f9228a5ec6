import LocationBroker.Decimal.Layout
import LocationBroker.Text.Quoted

/-! # Values in documents

What a document says, whichever format it is written in: a tree of tables and arrays with texts,
numbers, truth values and dates at its leaves.  A table lists its entries in the order in which they
were stated.
-/

namespace LocationBroker.Document

/-- The format that a document is written in. -/
inductive Format where
  | toml
  | json
  deriving DecidableEq

/-- How floating-point numbers of a format are shown to the author of a document. -/
def Format.numbers : Format → Decimal.Layout
  | .toml => { tie := .greater }
  | .json => { tie := .even, positional := some (-5, 15) }

/-- A value in a document. -/
inductive Value where
  | null
  | boolean (b : Bool)
  | integer (n : Int)
  | float (x : Float)
  | string (s : String)
  /-- A date, a time or both.  No reader looks into it. -/
  | datetime
  | array (items : List Value)
  | table (entries : List (String × Value))
  deriving Inhabited

/-- The value of a key; of several entries with the key the first one counts. -/
def lookup (key : String) (entries : List (String × Value)) : Option Value :=
  (entries.find? fun e => e.1 = key).map (·.2)

/-- What texts of a format are read as: the entries of their outermost table, if they are well
formed. -/
abbrev Parser := String → Option (List (String × Value))

/-- What a value is called where another one was wanted.  A date counts as a table. -/
def Value.describe (format : Format) : Value → String
  | .null => "null"
  | .boolean b => "boolean `" ++ (if b then "true" else "false") ++ "`"
  | .integer n => "integer `" ++ toString n ++ "`"
  | .float x => "floating point `" ++ format.numbers.write x ++ "`"
  | .string s => "string " ++ Text.quote s
  | .datetime => "map"
  | .array _ => "sequence"
  | .table _ => "map"

end LocationBroker.Document
