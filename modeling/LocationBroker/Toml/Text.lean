import LocationBroker.Text.Digits
import LocationBroker.Toml.Gap

/-! # Texts

A text stands between one or three double or single quotes.  Between double quotes a backslash
begins an escape; between three quotes the text may run over several lines, and the end of a line
is always read as one line feed.
-/

namespace LocationBroker.Toml

open Text (Scan)
open Text.Scan

/-! ## Characters and escapes -/

/-- A character that stands for itself between double quotes. -/
def isBasicChar (c : Char) : Bool := isPlain c && c != '\x22' && c != '\\'

/-- A character that stands for itself between single quotes. -/
def isLiteralChar (c : Char) : Bool := isPlain c && c != '\x27'

/-- A character given by a fixed number of hexadecimal digits. -/
def codePoint (digits : Nat) : Scan Char := do
  match Text.charAt? (← Text.hexNumber digits) with
  | some c => return c
  | none => failure

def escaped : Scan Char := do
  match ← satisfying fun _ => true with
  | 'b' => return '\x08'
  | 't' => return '\t'
  | 'n' => return '\n'
  | 'f' => return '\x0c'
  | 'r' => return '\r'
  | '\x22' => return '\x22'
  | '\\' => return '\\'
  | 'u' => codePoint 4
  | 'U' => codePoint 8
  | _ => failure

def basicChar : Scan Char :=
  satisfying isBasicChar <|> (exactly '\\' *> escaped)

/-! ## On one line -/

def basicText : Scan String := do
  exactly '\x22'
  let s ← many basicChar
  exactly '\x22'
  return String.ofList s

def literalText : Scan String := do
  exactly '\x27'
  let s ← run isLiteralChar
  exactly '\x27'
  return String.ofList s

/-! ## On several lines -/

def lineFeed : Scan (List Char) := newline *> pure ['\n']

/-- A backslash at the end of a line, with all blanks and ends of lines after it. -/
def joinedLines : Scan (List Char) := do
  exactly '\\'
  spaces
  newline
  let _ ← many ((do let _ ← run1 isSpace) <|> newline)
  return []

/-- One or two quotes that do not end the text. -/
def innerQuotes (mark : Char) : Scan (List Char) := do
  let quotes ← run1 (· == mark)
  if quotes.length < 3 then return quotes else failure

/-- The quotes that end a text; of more than three the first ones belong to it. -/
def closingQuotes (mark : Char) : Scan (List Char) := do
  let quotes ← run (· == mark)
  if 3 ≤ quotes.length ∧ quotes.length ≤ 5 then return quotes.drop 3 else failure

/-- A text between three quotes, made of the given pieces. -/
def linesOf (mark : Char) (piece : Scan (List Char)) : Scan String := do
  word [mark, mark, mark]
  let _ ← Scan.optional newline
  let s ← many (piece <|> lineFeed <|> innerQuotes mark)
  let last ← closingQuotes mark
  return String.ofList (s.flatten ++ last)

def basicLines : Scan String :=
  linesOf '\x22' (joinedLines <|> ([·]) <$> basicChar)

def literalLines : Scan String :=
  linesOf '\x27' (run1 isLiteralChar)

/-- A text of any kind.  Three quotes always begin a text of several lines. -/
def text : Scan String := fun s =>
  match s with
  | '\x22' :: '\x22' :: '\x22' :: _ => basicLines s
  | '\x22' :: _ => basicText s
  | '\x27' :: '\x27' :: '\x27' :: _ => literalLines s
  | '\x27' :: _ => literalText s
  | _ => none

end LocationBroker.Toml
