import LocationBroker.Pattern.Atom

/-! # Sets of characters

A set of characters stands between brackets: members, ranges, named sets and sets inside it, with
operators between some of them.  A circumflex at its beginning turns it into its complement, which
is no set of octets that a pattern may use.

A set is only examined as to whether it can be used; what is known of it then is its height, which
is how many parts that hold other parts lie within one another.
-/

namespace LocationBroker.Pattern

open Text (Scan)
open Text.Scan

/-- How many parts of a pattern may lie within one another. -/
def heightLimit : Nat := 250

/-- The height of parts side by side.  Several of them are a part of their own. -/
def heightOf : List Nat → Nat
  | [] => 0
  | [height] => height
  | heights => heights.foldl max 0 + 1

namespace CharSet

def named : List String :=
  ["alnum", "alpha", "ascii", "blank", "cntrl", "digit", "graph", "lower", "print", "punct",
    "space", "upper", "word", "xdigit"]

def namedSet : Scan Bool := do
  word ['[', ':']
  let isComplement ← Scan.optional (exactly '^')
  let name ← run (· != ':')
  word [':', ']']
  if named.contains (String.ofList name) then return isComplement.isSome else failure

def isUsable (m : Modes) (isComplement : Bool) : Bool :=
  if m.isUnicode then !m.isCaseless else !isComplement

def atom (m : Modes) : Scan Atom := do
  let c ← satisfying fun _ => true
  if c == '\\' then Atom.escaped m else return .char c

/-- The character that decides whether a minus sign makes a range.  In verbose mode blanks in front
of it are passed over, and so are those behind a number sign. -/
def afterMinus? (m : Modes) (s : List Char) : Option Char :=
  if m.isVerbose then
    match s.dropWhile Text.isBlank with
    | '\x23' :: rest => (rest.dropWhile Text.isBlank).head?
    | rest => rest.head?
  else s.head?

def rangeEnd (m : Modes) (first : Atom) : Scan Unit := do
  m.gap
  let last ← atom m
  match first.char?, last.char? with
  | some a, some b => if last.isMember m && a ≤ b then pure () else failure
  | _, _ => failure

def member (m : Modes) : Scan Unit := do
  let first ← atom m
  if !first.isMember m then failure
  m.gap
  fun s =>
    match s with
    | '-' :: rest =>
      match afterMinus? m rest with
      | some ']' | some '-' => some ((), s)
      | _ => rangeEnd m first rest
    | _ => some ((), s)

/-- The height of the parts of a set up to some place, where `before` is the height of what an
operator takes as its left side. -/
def heightUpTo (before : Option Nat) (parts : List Nat) : Nat :=
  match before with
  | none => heightOf parts
  | some height => max height (heightOf parts) + 1

def restOf (inner : Scan Nat) (m : Modes) (before : Option Nat) (parts : List Nat) :
    Nat → Scan Nat
  | 0 => failure
  | steps + 1 => do
    m.gap
    fun s =>
      match s with
      | ']' :: rest => some (heightUpTo before parts + 1, rest)
      | '&' :: '&' :: rest | '-' :: '-' :: rest | '~' :: '~' :: rest =>
        restOf inner m (some (heightUpTo before parts)) [] steps rest
      | '[' :: _ => (do
          match ← Scan.optional namedSet with
          | some isComplement =>
            if !isUsable m isComplement then failure
            restOf inner m before (0 :: parts) steps
          | none =>
            let height ← inner
            restOf inner m before (height :: parts) steps : Scan Nat) s
      | _ => (do
          member m
          restOf inner m before (0 :: parts) steps : Scan Nat) s

/-- A set with at most so many sets within one another.  Minus signs at its beginning are members,
and without them so is a closing bracket. -/
def scan (m : Modes) : Nat → Scan Nat
  | 0 => failure
  | depth + 1 => do
    exactly '['
    m.gap
    let circumflex ← Scan.optional (exactly '^')
    if circumflex.isSome && !m.isUnicode then failure
    m.gap
    let minuses ← many (exactly '-' <* m.gap)
    let bracket ← Scan.optional (if minuses.isEmpty then exactly ']' <* m.gap else failure)
    let first := minuses ++ bracket.toList
    if !first.isEmpty && !(Atom.char '-').isMember m then failure
    fun s => restOf (scan m depth) m none (first.map fun _ => 0) (s.length + 1) s

end CharSet

end LocationBroker.Pattern
