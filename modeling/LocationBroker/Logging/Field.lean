import LocationBroker.Pattern.Basic

/-! # Fields

A directive may ask for a field that spans or events have, and for a value of it.  The value is a
number or a pattern for the text of the value.
-/

namespace LocationBroker.Logging

open Text (Scan)
open Text.Scan

/-- A field, maybe with a value. -/
structure Field where
  name : String
  value : Option String
  deriving DecidableEq

namespace Field

/-- The digits of a decimal number, with a point among them or at either end. -/
def decimalDigits : Scan Unit := do
  let whole ← run Char.isDigit
  let point ← Scan.optional (exactly '.')
  let fraction ← run fun c => point.isSome && c.isDigit
  if whole.isEmpty && fraction.isEmpty then failure

def sign : Scan Char := satisfying fun c => c == '+' || c == '-'

def exponent : Scan Unit := do
  let _ ← satisfying fun c => c == 'e' || c == 'E'
  let _ ← Scan.optional sign
  let _ ← run1 Char.isDigit

/-- A decimal number; infinity and what is no number are such numbers, too. -/
def number : Scan Unit := do
  let _ ← Scan.optional sign
  let rest ← get
  if ["inf", "infinity", "nan"].contains (String.ofList rest).toLower then set ([] : List Char)
  else do
    decimalDigits
    let _ ← Scan.optional exponent
    finished

def isNumber (text : String) : Bool := (number text.toList).isSome

/-- Why the value of a field cannot be used, if it cannot. -/
def valueFault? (value : String) : Option Pattern.Fault :=
  if isNumber value then none else Pattern.fault? value

/-- Reads a field; the value stands between the first and the second equals sign. -/
def ofChars (s : List Char) : Except Pattern.Fault Field :=
  let name := String.ofList (s.takeWhile (· != '='))
  match s.dropWhile (· != '=') with
  | [] => .ok ⟨name, none⟩
  | _ :: rest =>
    let value := String.ofList (rest.takeWhile (· != '='))
    match valueFault? value with
    | none => .ok ⟨name, some value⟩
    | some fault => .error fault

end Field

end LocationBroker.Logging
