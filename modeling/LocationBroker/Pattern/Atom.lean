import LocationBroker.Pattern.Modes
import LocationBroker.Text.Digits

/-! # Atoms

The smallest parts of a pattern: characters, which may be escaped with a backslash, and marks for
sets of characters and for places in a text.

There are no tables of the letters of all scripts here.  So a character cannot be used in caseless
mode, and the marks for digits, blanks and letters cannot be used, unless the pattern is about
octets.  A pattern about octets may describe nothing but ASCII.
-/

namespace LocationBroker.Pattern

open Text (Scan)
open Text.Scan

/-- A smallest part of a pattern. -/
inductive Atom where
  | char (c : Char)
  /-- A character given by an octet in hexadecimal digits. -/
  | octet (c : Char)
  /-- The digits, the blanks or the letters, or everything but them. -/
  | kind (isComplement : Bool)
  /-- A place at the edge of a text or of a line. -/
  | edge
  /-- A place at the edge of a word, or not at one. -/
  | wordEdge
  /-- Any character of a line. -/
  | any

namespace Atom

/-- The character that an atom stands for, if it is one. -/
def char? : Atom → Option Char
  | .char c | .octet c => some c
  | _ => none

def isUsable (m : Modes) : Atom → Bool
  | .char _ => !(m.isUnicode && m.isCaseless)
  | .octet c => if m.isUnicode then !m.isCaseless else c.toNat < 0x80
  | .kind isComplement => !m.isUnicode && !isComplement
  | .edge | .wordEdge => true
  | .any => m.isUnicode

/-- Whether the atom can be used as a member of a set. -/
def isMember (m : Modes) : Atom → Bool
  | .char c | .octet c => if m.isUnicode then !m.isCaseless else c.toNat < 0x80
  | .kind isComplement => !m.isUnicode && !isComplement
  | .edge | .wordEdge | .any => false

/-! ## Escapes -/

/-- So many hexadecimal digits, with gaps in front of them. -/
def hexDigits (m : Modes) : Nat → Scan (List Char)
  | 0 => pure []
  | n + 1 => do
    m.gap
    let digit ← satisfying fun c => (Text.hexDigit? c).isSome
    let rest ← hexDigits m n
    return digit :: rest

/-- The character whose code point is given by so many hexadecimal digits. -/
def codePoint (m : Modes) (digits : Nat) : Scan Char := do
  let cs ← hexDigits m digits
  match Text.charAt? (Text.numeral 16 cs) with
  | some c => return c
  | none => failure

/-- The control character that a letter is short for. -/
def control? (letter : Char) : Option Char :=
  match letter with
  | 'a' => some '\x07'
  | 'f' => some '\x0c'
  | 't' => some '\t'
  | 'n' => some '\n'
  | 'r' => some '\r'
  | 'v' => some '\x0b'
  | _ => none

/-- Whether a backslash may stand before the character without changing it. -/
def isEscapable (c : Char) : Bool :=
  c.toNat < 0x80 && !c.isAlphanum && c != '<' && c != '>'

def escaped (m : Modes) : Scan Atom := do
  let c ← satisfying fun _ => true
  match c with
  | 'x' => .octet <$> codePoint m 2
  | 'u' => .char <$> codePoint m 4
  | 'U' => .char <$> codePoint m 8
  | 'd' | 's' | 'w' => return .kind false
  | 'D' | 'S' | 'W' => return .kind true
  | 'A' | 'z' => return .edge
  | 'b' | 'B' | '<' | '>' => return .wordEdge
  | _ =>
    match control? c with
    | some control => return .char control
    | none => if isEscapable c then return .char c else failure

/-- The characters that are no atoms because they give a pattern its structure. -/
def structural : List Char := ['(', ')', '|', '[', '*', '+', '?', '\x7b']

def scan (m : Modes) : Scan Atom := do
  let c ← satisfying fun c => !structural.contains c
  match c with
  | '\\' => escaped m
  | '.' => return .any
  | '^' | '$' => return .edge
  | _ => return .char c

end Atom

end LocationBroker.Pattern
