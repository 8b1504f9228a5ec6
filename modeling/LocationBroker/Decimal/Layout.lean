import LocationBroker.Decimal.Shortest

/-! # How floating-point numbers are written

A number is written with the fewest digits that are read back to it.  A layout decides which of two
equally near decimals is taken, and which numbers are written positionally, with a point and at
least one digit on both sides of it.  All others are written with one digit before the point and
with an exponent that has its sign.
-/

namespace LocationBroker.Decimal

/-- The decisions about the text of a number. -/
structure Layout where
  /-- Which of two equally near decimals is taken. -/
  tie : Tie
  /-- The least and the greatest exponent of the first digit of the numbers that are written
  positionally; without bounds, all numbers are. -/
  positional : Option (Int × Int) := none

namespace Scientific

/-- The exponent of the first digit. -/
def leading (d : Scientific) : Int :=
  d.exponent + digitCount d.digits - 1

def positional (d : Scientific) : String :=
  let digits := Nat.toDigits 10 d.digits
  if 0 ≤ d.exponent then
    String.ofList (digits ++ List.replicate d.exponent.natAbs '0' ++ ['.', '0'])
  else
    let places := d.exponent.natAbs
    let padded := List.replicate (places + 1 - digits.length) '0' ++ digits
    let whole := padded.length - places
    String.ofList (padded.take whole ++ '.' :: padded.drop whole)

def exponential (d : Scientific) : String :=
  let digits := match Nat.toDigits 10 d.digits with
    | first :: second :: rest => first :: '.' :: second :: rest
    | single => single
  let sign := if d.leading < 0 then "-" else "+"
  String.ofList digits ++ "e" ++ sign ++ toString d.leading.natAbs

end Scientific

namespace Layout

def writeDecimal (layout : Layout) (d : Scientific) : String :=
  match layout.positional with
  | none => d.positional
  | some (least, greatest) =>
    if least ≤ d.leading ∧ d.leading ≤ greatest then d.positional else d.exponential

/-- Writes a floating-point number, which has a bit for the sign, eleven bits for the exponent and
fifty-two for the fraction. -/
def write (layout : Layout) (x : Float) : String :=
  let bits : Nat := x.toBits.toNat
  let sign := if bits >>> 63 == 1 then "-" else ""
  let exponent : Nat := (bits >>> 52) % 0x800
  let fraction : Nat := bits % 0x10000000000000
  let decimal (m : Nat) (q : Int) (powerOfTwo : Bool) : String :=
    layout.writeDecimal (shortest layout.tie m q powerOfTwo)
  if exponent == 0x7ff then
    if fraction == 0 then sign ++ "inf" else "NaN"
  else if exponent == 0 then
    if fraction == 0 then sign ++ "0.0" else sign ++ decimal fraction (-1074) false
  else
    sign ++ decimal (0x10000000000000 + fraction) ((exponent : Int) - 1075)
      (fraction == 0 && exponent != 1)

end Layout

end LocationBroker.Decimal
