import LocationBroker.Decimal.Nearest
import LocationBroker.Document.Value
import LocationBroker.Toml.Text

/-! # Numbers, truth values and dates

Integers are those of 64 bits with a sign.  Digits may be set off by single underscores.  A number
with a fraction or an exponent is the nearest floating-point number; one that is too large is
refused, unless it is negative, which gives negative infinity.  Dates and times have to exist.
-/

namespace LocationBroker.Toml

open Document (Value)
open Text (Scan hexDigit? numeral)
open Text.Scan

/-! ## Digits -/

def isDecimal (c : Char) : Bool := c.isDigit

def isDigitOf (base : Nat) (c : Char) : Bool :=
  (hexDigit? c).any (· < base)

/-- Digits with single underscores between them. -/
def digits (p : Char → Bool) : Scan (List Char) := do
  let first ← satisfying p
  let rest ← many (satisfying p <|> (exactly '_' *> satisfying p))
  return first :: rest

/-- An optional sign; says whether it is a minus. -/
def sign : Scan Bool :=
  (exactly '-' *> pure true) <|> (exactly '+' *> pure false) <|> pure false

/-- The digits of a decimal integer, which begin with zero only if that is all. -/
def wholeDigits : Scan (List Char) := fun s =>
  match s with
  | '0' :: rest => some (['0'], rest)
  | _ => digits isDecimal s

/-! ## Integers -/

/-- An integer of 64 bits with a sign. -/
def bounded (n : Int) : Scan Value :=
  if Int64.minValue.toInt ≤ n ∧ n ≤ Int64.maxValue.toInt then pure (.integer n) else failure

/-- An integer in another base than ten, without a sign. -/
def basedInteger (mark : Char) (base : Nat) : Scan Value := do
  word ['0', mark]
  bounded (numeral base (← digits (isDigitOf base)))

def decimalInteger : Scan Value := do
  let negative ← sign
  let n : Int := numeral 10 (← wholeDigits)
  bounded (if negative then -n else n)

def integer : Scan Value :=
  basedInteger 'x' 16 <|> basedInteger 'o' 8 <|> basedInteger 'b' 2 <|> decimalInteger

/-! ## Floating-point numbers -/

def fraction : Scan (List Char) := exactly '.' *> digits isDecimal

def exponent : Scan Int := do
  let _ ← satisfying fun c => c == 'e' || c == 'E'
  let negative ← sign
  let n : Int := numeral 10 (← digits isDecimal)
  return if negative then -n else n

def decimalFloat : Scan Value := do
  let negative ← sign
  let whole ← wholeDigits
  let places ← Scan.optional fraction
  let power ← Scan.optional exponent
  if places.isNone && power.isNone then failure
  let behind := places.getD []
  let x := Decimal.nearestFloat (numeral 10 (whole ++ behind)) (power.getD 0 - behind.length)
  if negative then return .float (-x)
  else if x.isInf then failure
  else return .float x

/-- Infinity, or no number. -/
def specialFloat : Scan Value := do
  let negative ← sign
  let x : Float ←
    (word "inf".toList *> pure (1.0 / 0.0)) <|> (word "nan".toList *> pure (0.0 / 0.0))
  return .float (if negative then -x else x)

/-! ## Truth values -/

def truth : Scan Value :=
  (word "true".toList *> pure (.boolean true)) <|> (word "false".toList *> pure (.boolean false))

/-! ## Dates and times -/

/-- A number of exactly `n` decimal digits between two bounds. -/
def fixedNumber (n least greatest : Nat) : Scan Nat := do
  let value := numeral 10 (← times (satisfying isDecimal) n)
  if least ≤ value ∧ value ≤ greatest then return value else failure

def daysOfMonth (year month : Nat) : Nat :=
  let leap := year % 4 = 0 ∧ (year % 100 ≠ 0 ∨ year % 400 = 0)
  if month = 2 then (if leap then 29 else 28)
  else if month = 4 ∨ month = 6 ∨ month = 9 ∨ month = 11 then 30
  else 31

def date : Scan Unit := do
  let year ← fixedNumber 4 0 9999
  exactly '-'
  let month ← fixedNumber 2 1 12
  exactly '-'
  let _ ← fixedNumber 2 1 (daysOfMonth year month)

/-- A time of the day, to the second or finer. -/
def time : Scan Unit := do
  let _ ← fixedNumber 2 0 23
  exactly ':'
  let _ ← fixedNumber 2 0 59
  exactly ':'
  let _ ← fixedNumber 2 0 60
  let _ ← Scan.optional (exactly '.' *> run1 isDecimal)

/-- The distance of a time from universal time. -/
def zone : Scan Unit :=
  (do let _ ← satisfying fun c => c == 'Z' || c == 'z') <|> (do
    let _ ← satisfying fun c => c == '+' || c == '-'
    let _ ← fixedNumber 2 0 23
    exactly ':'
    let _ ← fixedNumber 2 0 59)

/-- A date, a time, or a date with a time and maybe its distance from universal time. -/
def datetime : Scan Value := do
  (do
    date
    let _ ← Scan.optional (do
      let _ ← satisfying fun c => c == 'T' || c == 't' || c == ' '
      time
      let _ ← Scan.optional zone)) <|> time
  return .datetime

def scalar : Scan Value :=
  Value.string <$> text <|> truth <|> datetime <|> decimalFloat <|> specialFloat <|> integer

end LocationBroker.Toml
