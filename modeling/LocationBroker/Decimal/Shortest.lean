/-! # The shortest decimals of binary fractions

A positive number `m * 2 ^ q` with a significand of 53 bits is written with the fewest digits that
no other such number is nearer to; of two such decimals the nearer one is taken, and a rule decides
if both are equally near.  A decimal is read back to the number exactly if it lies between the
middles to the number's two neighbours, the middles included if the significand is even.
-/

namespace LocationBroker.Decimal

/-- A fraction of natural numbers, not necessarily in lowest terms. -/
structure Fraction where
  num : Nat
  den : Nat

/-- The fraction `n * 2 ^ q`. -/
def Fraction.ofBinary (n : Nat) (q : Int) : Fraction :=
  if q < 0 then ⟨n, Nat.pow 2 q.natAbs⟩ else ⟨n * Nat.pow 2 q.natAbs, 1⟩

/-- The fraction divided by `10 ^ e`. -/
def Fraction.shift (f : Fraction) (e : Int) : Fraction :=
  if e < 0 then ⟨f.num * Nat.pow 10 e.natAbs, f.den⟩ else ⟨f.num, f.den * Nat.pow 10 e.natAbs⟩

/-- A decimal number `digits * 10 ^ exponent`. -/
structure Scientific where
  digits : Nat
  exponent : Int

/-- Which of two equally near decimals is taken. -/
inductive Tie where
  /-- The greater one. -/
  | greater
  /-- The one whose last digit is even. -/
  | even
  deriving DecidableEq

/-- The number of digits of a natural number. -/
def digitCount (n : Nat) : Nat :=
  (Nat.toDigits 10 n).length

/-- The number of places by which a fraction below one has to be shifted to reach one. -/
def leadingPlaces (f : Fraction) : Nat → Nat
  | 0 => 0
  | fuel + 1 => if f.den ≤ f.num then 0 else leadingPlaces ⟨f.num * 10, f.den⟩ fuel + 1

/-- The exponent of the first digit of a positive fraction. -/
def leadingExponent (f : Fraction) : Int :=
  if f.den ≤ f.num then (digitCount (f.num / f.den) : Int) - 1
  else -(leadingPlaces f (digitCount f.den + 1) : Int)

/-- The numbers that are read back to the same binary number. -/
structure Interval where
  low : Fraction
  high : Fraction
  /-- Whether the two ends belong to it. -/
  closed : Bool

/-- Whether a fraction is in the interval. -/
def Interval.contains (i : Interval) (f : Fraction) : Bool :=
  let below (a b : Fraction) : Bool :=
    if i.closed then a.num * b.den ≤ b.num * a.den else a.num * b.den < b.num * a.den
  below i.low f && below f i.high

/-- The interval around `m * 2 ^ q`; below a power of two the neighbour is half as far away. -/
def Interval.around (m : Nat) (q : Int) (powerOfTwo : Bool) : Interval where
  low := .ofBinary (4 * m - (if powerOfTwo then 1 else 2)) (q - 2)
  high := .ofBinary (4 * m + 2) (q - 2)
  closed := m % 2 == 0

/-- The same decimal number without a zero at its end. -/
def Scientific.withoutZero (d : Scientific) : Scientific :=
  if d.digits % 10 = 0 then ⟨d.digits / 10, d.exponent + 1⟩ else d

/-- Whether the greater of two neighbouring whole numbers is taken for a fraction between them. -/
def roundsUp (tie : Tie) (f : Fraction) : Bool :=
  match compare (2 * (f.num % f.den)) f.den, tie with
  | .lt, _ => false
  | .gt, _ => true
  | .eq, .greater => true
  | .eq, .even => f.num / f.den % 2 == 1

/-- The neighbour of `value` among the decimals of the given exponent that lies in the interval, and
of two such neighbours the one to which the value is rounded. -/
def nearest? (tie : Tie) (i : Interval) (value : Fraction) (exponent : Int) : Option Scientific :=
  let scaled := value.shift exponent
  let down := scaled.num / scaled.den
  let hit (d : Nat) : Bool := i.contains ((Fraction.mk d 1).shift (-exponent))
  if hit down && !(hit (down + 1) && roundsUp tie scaled) then some ⟨down, exponent⟩
  else if hit (down + 1) then some ⟨down + 1, exponent⟩
  else none

/-- The shortest decimal for the value among those with `places` digits or more.  Only the power of
ten above all decimals of some length ends in a zero, and it is one digit. -/
def search (tie : Tie) (i : Interval) (value : Fraction) (first : Int) (places : Nat) :
    Nat → Scientific
  | 0 => ⟨0, 0⟩
  | fuel + 1 =>
    match nearest? tie i value (first + 1 - places) with
    | some d => d.withoutZero
    | none => search tie i value first (places + 1) fuel

/-- The shortest decimal of the positive number `m * 2 ^ q`. -/
def shortest (tie : Tie) (m : Nat) (q : Int) (powerOfTwo : Bool) : Scientific :=
  let value := Fraction.ofBinary m q
  search tie (.around m q powerOfTwo) value (leadingExponent value) 1 20

end LocationBroker.Decimal
