import LocationBroker.Text.Unprintable

/-! # Quoted texts

A quoted text stands between double quotes.  The quote and the backslash get a backslash in front,
four control characters have a short form, every other unprintable character is written as its code
point in hexadecimal digits, and all else stands as it is.
-/

namespace LocationBroker.Text

/-- A code point between braces, in lower-case hexadecimal digits without leading zeros. -/
def codePointEscape (c : Char) : List Char :=
  "\\u\x7b".toList ++ Nat.toDigits 16 c.toNat ++ ['\x7d']

def shortEscape? (c : Char) : Option (List Char) :=
  match c with
  | '\t' => some ['\\', 't']
  | '\n' => some ['\\', 'n']
  | '\r' => some ['\\', 'r']
  | '\x00' => some ['\\', '0']
  | '\\' => some ['\\', '\\']
  | _ => none

/-- Writes a character between quotation marks of the given kind. -/
def escapeChar (mark : Char) (c : Char) : List Char :=
  if c = mark then ['\\', c]
  else (shortEscape? c).getD (if isUnprintable c then codePointEscape c else [c])

def quote (s : String) : String :=
  String.ofList ('\x22' :: (s.toList.flatMap (escapeChar '\x22') ++ ['\x22']))

end LocationBroker.Text
