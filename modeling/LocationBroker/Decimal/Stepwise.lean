import LocationBroker.Decimal.Shortest

/-! # Decimals read in steps of floating-point numbers

A reader that keeps no more digits than fit into 64 bits, and scales what it kept by floating-point
operations, rounds at every step.  So the number that it reads may be a neighbour of the one that is
nearest to the decimal.
-/

namespace LocationBroker.Decimal

/-- Takes digits to the end of a number for as long as it stays below a limit, and gives back the
digits that are left. -/
def takeDigits (limit n : Nat) : List Char → Nat × List Char
  | [] => (n, [])
  | c :: rest =>
    let next := n * 10 + (c.toNat - '0'.toNat)
    if next < limit then takeDigits limit next rest else (n, c :: rest)

/-- The digits of a decimal that fit into 64 bits, as a number with its exponent: first those before
the point, then those behind it. -/
def significand (whole places : List Char) : Scientific :=
  let (n, unread) := takeDigits UInt64.size 0 whole
  let (digits, rest) := takeDigits UInt64.size n places
  ⟨digits, (unread.length : Int) - (places.length - rest.length : Nat)⟩

/-- The floating-point number nearest to a power of ten. -/
def powerOfTen (n : Nat) : Float :=
  Float.ofScientific 1 false n

/-- The greatest power of ten that is a floating-point number. -/
def greatestPower : Nat := 308

/-- Divides by a power of ten, in steps of the greatest power. -/
def dividedBy (x : Float) (n : Nat) : Float :=
  if greatestPower < n then
    if x == 0.0 then x else dividedBy (x / powerOfTen greatestPower) (n - greatestPower)
  else x / powerOfTen n
termination_by n
decreasing_by simp only [greatestPower] at *; omega

/-- The floating-point number that is made of a decimal, unless it is too large for one. -/
def stepwise? (d : Scientific) : Option Float :=
  let x := Float.ofScientific d.digits false 0
  if d.exponent < 0 then some (dividedBy x d.exponent.natAbs)
  else if d.digits = 0 then some x
  else if greatestPower < d.exponent.natAbs then none
  else
    let y := x * powerOfTen d.exponent.natAbs
    if y.isInf then none else some y

end LocationBroker.Decimal
