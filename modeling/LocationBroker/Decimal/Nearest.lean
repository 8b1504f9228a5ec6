import LocationBroker.Decimal.Shortest

/-! # The nearest binary fractions of decimals -/

namespace LocationBroker.Decimal

/-- The floating-point number that is nearest to `n * 10 ^ e`.  What is beyond the largest one gives
infinity, and what is too small to be told from zero gives zero, without computing the power. -/
def nearestFloat (n : Nat) (e : Int) : Float :=
  let magnitude : Int := (digitCount n : Int) + e
  if n = 0 then 0.0
  else if 400 < magnitude then 1.0 / 0.0
  else if magnitude < -400 then 0.0
  else Float.ofScientific n (e < 0) e.natAbs

end LocationBroker.Decimal
