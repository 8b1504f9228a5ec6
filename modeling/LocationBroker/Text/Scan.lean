/-! # Scanning

A scanner takes what it recognises off the front of a sequence of characters, or fails.  Choice
tries the second scanner where the first one failed, from the same place.
-/

namespace LocationBroker.Text

/-- Recognises something at the front of the characters that are left. -/
abbrev Scan (α : Type) := StateT (List Char) Option α

namespace Scan

variable {α β : Type}

def satisfying (p : Char → Bool) : Scan Char
  | c :: rest => if p c then some (c, rest) else none
  | [] => none

def exactly (c : Char) : Scan Unit := do
  let _ ← satisfying (· == c)

def word : List Char → Scan Unit
  | [] => pure ()
  | c :: rest => do
    exactly c
    word rest

/-- The longest run of characters that satisfy a test. -/
def run (p : Char → Bool) : Scan (List Char) :=
  fun s => some (s.takeWhile p, s.dropWhile p)

/-- The longest run of characters that satisfy a test; it must not be empty. -/
def run1 (p : Char → Bool) : Scan (List Char) := do
  let first ← satisfying p
  let rest ← run p
  return first :: rest

/-- The front character, which is left in its place. -/
def peek : Scan (Option Char) := fun s => some (s.head?, s)

def finished : Scan Unit := fun s => if s.isEmpty then some ((), s) else none

def optional (scan : Scan α) : Scan (Option α) :=
  (some <$> scan) <|> pure none

/-- At most `n` repetitions. -/
def upTo (scan : Scan α) : Nat → Scan (List α)
  | 0 => pure []
  | n + 1 => (do
      let first ← scan
      let rest ← upTo scan n
      return first :: rest) <|> pure []

/-- As many repetitions as there are, each of at least one character. -/
def many (scan : Scan α) : Scan (List α) :=
  fun s => upTo scan s.length s

/-- One or more items with separators between them. -/
def separated (item : Scan α) (separator : Scan β) : Scan (List α) := do
  let first ← item
  let rest ← many (separator *> item)
  return first :: rest

/-- No, one or more items with separators between them. -/
def separated? (item : Scan α) (separator : Scan β) : Scan (List α) :=
  separated item separator <|> pure []

def times (scan : Scan α) : Nat → Scan (List α)
  | 0 => pure []
  | n + 1 => do
    let first ← scan
    let rest ← times scan n
    return first :: rest

end Scan

end LocationBroker.Text
