import LocationBroker.Decimal.Stepwise
import LocationBroker.Document.Value
import LocationBroker.Text.Digits
import LocationBroker.Text.Order

/-! # Documents in JSON

The broker's own files are written in TOML.  JSON is how others hand it what the same readers read.
`parse?` gives the value that a document describes.  A whole number of 64 bits is an integer, every
other number is a floating-point number; the entries of a table stand in ascending order of their
keys, and of two entries with the same key the later one counts.
-/

namespace LocationBroker.Json

open Document (Value)
open Text (Scan)
open Text.Scan

def isBlank (c : Char) : Bool := c == ' ' || c == '\t' || c == '\n' || c == '\r'

def blanks : Scan Unit := do
  let _ ← run isBlank

/-! ## Texts -/

/-- The character of a code unit, or of a pair of them. -/
def unitChar : Scan Char := do
  let high ← Text.hexNumber 4
  if 0xd800 ≤ high ∧ high < 0xdc00 then
    word ['\\', 'u']
    let low ← Text.hexNumber 4
    if 0xdc00 ≤ low ∧ low < 0xe000 then
      return Char.ofNat (0x10000 + (high - 0xd800) * 0x400 + (low - 0xdc00))
    else failure
  else
    match Text.charAt? high with
    | some c => return c
    | none => failure

def escaped : Scan Char := do
  match ← satisfying fun _ => true with
  | '\x22' => return '\x22'
  | '\\' => return '\\'
  | '/' => return '/'
  | 'b' => return '\x08'
  | 'f' => return '\x0c'
  | 'n' => return '\n'
  | 'r' => return '\r'
  | 't' => return '\t'
  | 'u' => unitChar
  | _ => failure

def textChar : Scan Char :=
  satisfying (fun c => 0x20 ≤ c.toNat && c != '\x22' && c != '\\') <|> (exactly '\\' *> escaped)

def text : Scan String := do
  exactly '\x22'
  let s ← many textChar
  exactly '\x22'
  return String.ofList s

/-! ## Numbers -/

/-- The digits before the point, which begin with zero only if that is all. -/
def wholeDigits : Scan (List Char) := fun s =>
  match s with
  | '0' :: rest => some (['0'], rest)
  | _ => run1 Char.isDigit s

def exponent : Scan Int := do
  let _ ← satisfying fun c => c == 'e' || c == 'E'
  let sign ← Scan.optional (satisfying fun c => c == '+' || c == '-')
  let n : Int := Text.numeral 10 (← run1 Char.isDigit)
  return if sign = some '-' then -n else n

def number : Scan Value := do
  let negative ← Option.isSome <$> Scan.optional (exactly '-')
  let whole ← wholeDigits
  let places ← Scan.optional (exactly '.' *> run1 Char.isDigit)
  let power ← Scan.optional exponent
  let n := Text.numeral 10 whole
  let fits := if negative then 0 < n ∧ Int64.minValue.toInt ≤ -n else n < UInt64.size
  if places.isNone ∧ power.isNone ∧ fits then
    return .integer (if negative then -(n : Int) else n)
  let d := Decimal.significand whole (places.getD [])
  match Decimal.stepwise? ⟨d.digits, d.exponent + power.getD 0⟩ with
  | some x => return .float (if negative then -x else x)
  | none => failure

/-! ## Values -/

/-- Puts an entry at its place, in the stead of an entry of the same key. -/
def insertEntry (key : String) (v : Value) : List (String × Value) → List (String × Value)
  | [] => [(key, v)]
  | e :: rest =>
    match Text.order key e.1 with
    | .lt => (key, v) :: e :: rest
    | .eq => (key, v) :: rest
    | .gt => e :: insertEntry key v rest

def scalar : Scan Value :=
  Value.string <$> text <|> number <|> (word "true".toList *> pure (.boolean true))
    <|> (word "false".toList *> pure (.boolean false)) <|> (word "null".toList *> pure .null)

def arrayOf (item : Scan Value) : Scan Value := do
  exactly '['
  let items ← separated? (blanks *> item <* blanks) (exactly ',')
  blanks
  exactly ']'
  return .array items

def tableOf (item : Scan Value) : Scan Value := do
  exactly '\x7b'
  let entries ← separated? (do
    let key ← blanks *> text <* blanks
    exactly ':'
    let v ← blanks *> item <* blanks
    return (key, v)) (exactly ',')
  blanks
  exactly '\x7d'
  return .table (entries.foldl (fun es e => insertEntry e.1 e.2 es) [])

/-- The greatest number of arrays and tables inside one another. -/
def depthLimit : Nat := 127

/-- A value with at most `depth` arrays and tables inside one another. -/
def value : Nat → Scan Value
  | 0 => scalar
  | depth + 1 => fun s =>
    match s with
    | '[' :: _ => arrayOf (value depth) s
    | '\x7b' :: _ => tableOf (value depth) s
    | _ => scalar s

def parse? (document : String) : Option Value := do
  let (v, _) ← (blanks *> value depthLimit <* blanks <* finished : Scan Value) document.toList
  return v

end LocationBroker.Json
