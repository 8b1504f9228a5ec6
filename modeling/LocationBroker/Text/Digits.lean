import LocationBroker.Text.Scan

/-! # Digits

Digits of bases up to sixteen, the numbers that sequences of them denote, and characters given by
their code points.
-/

namespace LocationBroker.Text

def hexDigit? (c : Char) : Option Nat :=
  let n := c.toNat
  if 0x30 ≤ n ∧ n ≤ 0x39 then some (n - 0x30)
  else if 0x41 ≤ n ∧ n ≤ 0x46 then some (n - 0x37)
  else if 0x61 ≤ n ∧ n ≤ 0x66 then some (n - 0x57)
  else none

/-- The number that a sequence of digits in a base denotes. -/
def numeral (base : Nat) (digits : List Char) : Nat :=
  digits.foldl (fun n c => n * base + (hexDigit? c).getD 0) 0

/-- A number of exactly so many hexadecimal digits. -/
def hexNumber (digits : Nat) : Scan Nat := do
  let cs ← Scan.times (Scan.satisfying fun c => (hexDigit? c).isSome) digits
  return numeral 16 cs

def charAt? (n : Nat) : Option Char :=
  if n.isValidChar then some (Char.ofNat n) else none

end LocationBroker.Text
