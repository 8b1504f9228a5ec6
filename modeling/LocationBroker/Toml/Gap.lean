import LocationBroker.Text.Scan

/-! # Blanks, comments and ends of lines

What may stand between the parts of a document without meaning anything.
-/

namespace LocationBroker.Toml

open Text (Scan)

def isSpace (c : Char) : Bool := c == ' ' || c == '\t'

def spaces : Scan Unit := do
  let _ ← Scan.run isSpace

def newline : Scan Unit :=
  Scan.exactly '\n' <|> Scan.word ['\r', '\n']

def lineEnd : Scan Unit := newline <|> Scan.finished

/-- A character beyond ASCII. -/
def isWide (c : Char) : Bool := 0x80 ≤ c.toNat

/-- A printable character, a blank or a character beyond ASCII. -/
def isPlain (c : Char) : Bool :=
  c == '\t' || (0x20 ≤ c.toNat && c.toNat ≤ 0x7e) || isWide c

def comment : Scan Unit := do
  Scan.exactly '\x23'
  let _ ← Scan.run isPlain

/-- What may follow a statement on its line. -/
def lineRest : Scan Unit := do
  spaces
  let _ ← Scan.optional comment
  lineEnd

def gap : Scan Unit := do
  let _ ← Scan.many (
    (do let _ ← Scan.run1 isSpace) <|> newline <|> (do comment; newline))

end LocationBroker.Toml
