import LocationBroker.Log.Level
import LocationBroker.Logging.Field
import LocationBroker.Text.Order
import LocationBroker.Text.Utf8

/-! # Filters

A filter is a list of directives.  Each names a level, and maybe the beginning of the names of the
targets that it is about.  Of the directives that are about a target, the one with the longest
beginning decides how important an event has to be; without any, no event passes.

A directive may name a span of time between square brackets, and a field of it between braces
inside the brackets.  It is about what happens during such spans.  The broker has none, so no event
passes by such a directive.  Only a field that stands there alone does not tie a directive to spans:
the directive is more specific than one about the same target without a field.
-/

namespace LocationBroker.Logging

open Log (Level)

/-- How much passes: nothing, or every level up to one. -/
structure Threshold where
  level : Option Level
  deriving DecidableEq

namespace Threshold

/-- Nothing passes. -/
def off : Threshold := ⟨none⟩

def everything : Threshold := ⟨some .trace⟩

def passes (t : Threshold) (level : Level) : Bool :=
  match t.level with
  | none => false
  | some least => level.rank ≤ least.rank

def known : List (String × Threshold) :=
  ("off", off) :: Level.all.map fun l => (l.name, ⟨some l⟩)

/-- The threshold of a rank, where zero lets nothing pass. -/
def ofRank? (rank : Nat) : Option Threshold :=
  if rank = 0 then some off
  else (Level.all.find? fun l => l.rank = rank).map fun l => ⟨some l⟩

/-- The threshold of a decimal number, which may have a plus sign in front. -/
def ofNumeral? (numeral : List Char) : Option Threshold :=
  let digits := match numeral with
    | '+' :: rest => rest
    | rest => rest
  if !digits.isEmpty && digits.all Char.isDigit then ofRank? (Text.numeral 10 digits) else none

/-- The threshold of a name, in whatever case it is written, or of a number. -/
def ofString? (text : String) : Option Threshold :=
  ofNumeral? text.toList <|> (known.find? fun k => k.1 = text.toLower).map (·.2)

end Threshold

/-- Where a directive applies. -/
inductive Scope where
  /-- Everywhere. -/
  | everywhere
  /-- Wherever the named field could be. -/
  | fields (name : String)
  /-- Only during spans. -/
  | spans
  deriving DecidableEq

/-- How much passes of the targets whose names begin with a text. -/
structure Directive where
  target : String
  threshold : Threshold
  scope : Scope := .everywhere
  deriving DecidableEq

/-- Why a directive cannot be read. -/
inductive DirectiveFault where
  /-- It has not the form of a directive. -/
  | malformed
  /-- It names no level. -/
  | unknownLevel
  /-- It asks for a value of a field by a pattern that cannot be used. -/
  | unusableField (cause : Pattern.Fault)
  deriving DecidableEq

/-- The wording of a fault. -/
def DirectiveFault.message : DirectiveFault → String
  | .malformed => "invalid filter directive"
  | .unknownLevel =>
    "error parsing level filter: expected one of \"off\", \"error\", \"warn\", "
      ++ "\"info\", \"debug\", \"trace\", or a number 0-5"
  | .unusableField cause => "invalid field filter: " ++ cause.message

/-- The directives of a filter; of two about the same target the later one counts. -/
structure Filter where
  directives : List Directive
  deriving DecidableEq

/-! ## Reading directives

The parts of a directive are found without the blanks at its ends.  Then each is taken from the
places that it has there, but counted from the beginning of the directive with its blanks.  So
blanks in front move every part but the whole, and those behind belong to the last part.
-/

/-- A directive. -/
structure Written where
  /-- The directive with the blanks at its ends. -/
  text : String
  /-- The directive without them. -/
  inner : List Char

namespace Written

/-- Sets a directive apart from its blanks. -/
def ofString (text : String) : Written :=
  ⟨text, Text.trimChars text.toList⟩

def sizeOf (s : List Char) : Nat := (Text.Utf8.encode (String.ofList s)).length

/-- The octets from the place where the given end of the directive begins. -/
def octetsFrom (w : Written) (rest : List Char) : List UInt8 :=
  (Text.Utf8.encode w.text).drop (sizeOf w.inner - sizeOf rest)

/-- The text from the place where the given end of the directive begins. -/
def textFrom (w : Written) (rest : List Char) : Except DirectiveFault String :=
  match Text.Utf8.decode? (w.octetsFrom rest) with
  | some text => .ok text
  | none => .error .malformed

/-- The text at the places of a part that the given end of the directive begins with. -/
def textOf (w : Written) (rest part : List Char) : Except DirectiveFault String :=
  match Text.Utf8.decode? ((w.octetsFrom rest).take (sizeOf part)) with
  | some text => .ok text
  | none => .error .malformed

end Written

namespace Directive

/-- A directive begins with a letter, a digit or one of three marks, or with the bracket of a
span. -/
def mayBegin (c : Char) : Bool :=
  c == '[' || c == '-' || c == ':' || c == '_' || Text.isAlphanumeric c

/-- The threshold that is named by the given end of a directive; no name lets everything pass. -/
def threshold? (w : Written) (level : List Char) : Except DirectiveFault Threshold := do
  let name ← w.textFrom level
  if name.isEmpty then return .everything
  match Threshold.ofString? name with
  | some t => return t
  | none => throw .unknownLevel

/-- The scope of a span, from behind its opening bracket, and what follows its closing bracket.  A
directive about a field without a value, and without the name of a span, is not only about
spans. -/
def scope? (w : Written) (span : List Char) : Except DirectiveFault (Scope × List Char) :=
  let name := span.takeWhile fun c => c != ']' && c != '\x7b'
  match span.dropWhile fun c => c != ']' && c != '\x7b' with
  | ']' :: rest => return (.spans, rest)
  | '\x7b' :: fields => do
    let written := fields.takeWhile (· != '\x7d')
    let closing := fields.dropWhile (· != '\x7d')
    if written.isEmpty || closing.isEmpty then throw .malformed
    let text ← w.textOf fields written
    let field ← (Field.ofChars text.toList).mapError .unusableField
    match closing with
    | _ :: ']' :: rest =>
      if name.isEmpty && field.value.isNone then return (.fields field.name, rest)
      else return (.spans, rest)
    | _ => throw .malformed
  | _ => throw .malformed

/-- Reads a directive: a threshold, or a target, maybe with a span, and maybe with a threshold
behind an equals sign.  What is no threshold is a target of which everything passes. -/
def ofString (text : String) : Except DirectiveFault Directive := do
  let w := Written.ofString text
  if !w.inner.head?.any mayBegin then throw .malformed
  let front := w.inner.takeWhile fun c => c != '=' && c != '['
  match w.inner.dropWhile fun c => c != '=' && c != '[' with
  | [] =>
    match Threshold.ofString? text with
    | some t => return ⟨"", t, .everywhere⟩
    | none => return ⟨text, .everything, .everywhere⟩
  | '[' :: span =>
    let target ← w.textOf w.inner front
    let (scope, rest) ← scope? w span
    match rest with
    | [] => return ⟨target, .everything, scope⟩
    | '=' :: level => return ⟨target, ← threshold? w level, scope⟩
    | _ => throw .malformed
  | _ :: level =>
    let target ← w.textOf w.inner front
    return ⟨target, ← threshold? w level, .everywhere⟩

/-- Whether a directive is about what happens at a target. -/
def isAbout (d : Directive) (target : String) : Bool :=
  d.scope != .spans && d.target.toList.isPrefixOf target.toList

/-- Whether a scope is at most as narrow as another one; of two fields the one whose name comes
later is narrower. -/
def Scope.isWithin : Scope → Scope → Bool
  | _, .everywhere => true
  | .fields a, .fields b => (Text.order b a).isLE
  | a, b => a == b

/-- Whether a directive is at least as specific as another one that is about the same. -/
def isAsSpecificAs (d other : Directive) : Bool :=
  other.target.length < d.target.length
    || (other.target.length == d.target.length && Scope.isWithin d.scope other.scope)

end Directive

namespace Filter

def pieces (current : List Char) : List Char → List String
  | [] => [String.ofList current]
  | c :: rest =>
    if c = ',' then String.ofList current :: pieces [] rest else pieces (current ++ [c]) rest

/-- Reads the directives between commas; nothing between two commas is no directive. -/
def ofString (text : String) : Except DirectiveFault Filter :=
  (((pieces [] text.toList).filter (· ≠ "")).mapM Directive.ofString).map Filter.mk

/-- The directive that decides about a target: the most specific one, and the last of them. -/
def decisive? (f : Filter) (target : String) : Option Directive :=
  (f.directives.filter fun d => d.isAbout target).foldl (fun best d =>
    match best with
    | none => some d
    | some b => if d.isAsSpecificAs b then some d else some b) none

def enables (f : Filter) (target : String) (level : Level) : Bool :=
  match f.decisive? target with
  | none => false
  | some d => d.threshold.passes level

end Filter

end LocationBroker.Logging
