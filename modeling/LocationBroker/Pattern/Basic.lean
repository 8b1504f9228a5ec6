import LocationBroker.Pattern.CharSet
import LocationBroker.Text.Alphanumeric

/-! # Patterns

A pattern is made of alternatives, each a sequence of atoms, sets and groups that may be marked as
repeated.  Patterns are only examined as to whether they can be used, because there is nothing that
they are compared with: `fault?` tells why a pattern cannot be used.
-/

namespace LocationBroker.Pattern

open Text (Scan)
open Text.Scan

/-- Why a pattern cannot be used. -/
inductive Fault where
  /-- It is no pattern, or has a part that cannot be used. -/
  | unusable
  /-- It asks for edges of words in any script. -/
  | wordEdge
  deriving DecidableEq

/-- The wording of a fault. -/
def Fault.message : Fault → String
  | .unusable => "error building NFA"
  | .wordEdge =>
    "unsupported regex feature for DFAs: cannot build DFAs for regexes with Unicode word "
      ++ "boundaries; switch to ASCII word boundaries, or heuristically enable Unicode word "
      ++ "boundaries or use a different regex engine"

/-- What is known of a part of a pattern. -/
structure Shape where
  height : Nat := 0
  /-- The names of the groups in it. -/
  names : List String := []
  /-- Whether it asks for edges of words in any script. -/
  hasWordEdge : Bool := false

namespace Shape

/-- The shape of parts side by side. -/
def join (parts : List Shape) : Shape :=
  ⟨heightOf (parts.map (·.height)), parts.flatMap (·.names), parts.any (·.hasWordEdge)⟩

def within (s : Shape) (levels : Nat) : Shape :=
  { s with height := s.height + levels }

def ofAtom (m : Modes) : Atom → Shape
  | .wordEdge => { hasWordEdge := m.isUnicode }
  | _ => {}

end Shape

/-! ## Groups -/

/-- What an opening parenthesis begins. -/
inductive Opening where
  /-- Nothing but a switch of modes, which is closed again. -/
  | switch (m : Modes)
  /-- A group, maybe with a name. -/
  | group (m : Modes) (name : Option String)

namespace Opening

/-- The name of a group, and the sign behind it. -/
def name : Scan String := do
  let first ← satisfying fun c => c == '_' || Text.isLetter c
  let rest ← run fun c =>
    c == '_' || c == '.' || c == '[' || c == ']' || Text.isAlphanumeric c
  exactly '>'
  return String.ofList (first :: rest)

/-- Modes to be switched, for a group or up to the end of the group around. -/
def switches (m : Modes) : Scan Opening := do
  let letters ← run fun c => c != ':' && c != ')'
  match Switches.ofLetters? letters with
  | none => failure
  | some s =>
    let sign ← satisfying fun _ => true
    if sign == ':' then return .group (m.switch s) none
    else if letters.isEmpty then failure
    else return .switch (m.switch s)

def scan (m : Modes) : Scan Opening := do
  exactly '('
  m.gap
  (do
      exactly '?'
      (do
          let _ ← Scan.optional (exactly 'P')
          exactly '<'
          return Opening.group m (some (← name)))
        <|> switches m)
    <|> pure (.group m none)

end Opening

/-! ## Sequences and alternatives -/

/-- The marks behind a part that say how often it is repeated. -/
def repetitions (m : Modes) : Scan Nat := do
  let marks ← many do
    m.gap
    let _ ← satisfying fun c => c == '*' || c == '+' || c == '?'
    Scan.optional (exactly '?')
  return marks.length

/-- A part of a sequence, and the modes after it; `inner` is for what groups hold. -/
def part (inner : Modes → Scan Shape) (m : Modes) : Scan (Modes × Shape) := do
  let repeated (s : Shape) : Scan (Modes × Shape) := do
    return (m, s.within (← repetitions m))
  match ← peek with
  | some '(' =>
    match ← Opening.scan m with
    | .switch modes => return (modes, {})
    | .group modes name =>
      let shape ← inner modes
      exactly ')'
      repeated { shape.within 1 with names := name.toList ++ shape.names }
  | some '[' =>
    let height ← CharSet.scan m heightLimit
    repeated { height }
  | _ =>
    let atom ← Atom.scan m
    if !atom.isUsable m then failure
    repeated (.ofAtom m atom)

/-- A sequence of parts, and the modes after it, in so many steps. -/
def sequence (inner : Modes → Scan Shape) (m : Modes) (before : List Shape) :
    Nat → Scan (Modes × Shape)
  | 0 => failure
  | steps + 1 => do
    m.gap
    match ← peek with
    | none | some ')' | some '|' => return (m, .join before)
    | some _ =>
      let (modes, shape) ← part inner m
      sequence inner modes (before ++ [shape]) steps

/-- Sequences with bars between them, in so many steps. -/
def choices (inner : Modes → Scan Shape) (m : Modes) (before : List Shape) :
    Nat → Scan Shape
  | 0 => failure
  | steps + 1 => do
    let (modes, shape) ← fun s => sequence inner m [] (s.length + 1) s
    match ← Scan.optional (exactly '|') with
    | none => return .join (before ++ [shape])
    | some _ => choices inner modes (before ++ [shape]) steps

/-- Alternatives with at most so many groups within one another. -/
def alternatives : Nat → Modes → Scan Shape
  | 0, m => fun s => choices (fun _ => failure) m [] (s.length + 1) s
  | depth + 1, m => fun s => choices (alternatives depth) m [] (s.length + 1) s

def shape? (pattern : String) : Option Shape := do
  let (shape, _) ← (alternatives heightLimit {} <* finished) pattern.toList
  if shape.height ≤ heightLimit ∧ shape.names.Nodup then return shape else none

def fault? (pattern : String) : Option Fault :=
  match shape? pattern with
  | none => some .unusable
  | some shape => if shape.hasWordEdge then some .wordEdge else none

end LocationBroker.Pattern
