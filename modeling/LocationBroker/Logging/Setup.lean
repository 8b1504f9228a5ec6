import LocationBroker.Logging.Filter
import LocationBroker.Logging.Mode
import LocationBroker.Text.Quoted
import LocationBroker.Text.Utf8

/-! # Setting up logging

Logging is set up once: the first request that names a mode other than the silent one, with a filter
that can be read, installs that filter, and every later one is refused.  The filter is taken from
the environment, and from the mode if the environment has none.  How its directives are read is left
open; `Filter.ofString` is one way.
-/

namespace LocationBroker.Logging

/-- The variables that logging looks at, as the octets they hold. -/
structure Environment where
  /-- The mode. -/
  mode : Option (List UInt8) := none
  /-- The filter. -/
  level : Option (List UInt8) := none
  /-- The filter, if the variable before is not set. -/
  fallback : Option (List UInt8) := none

/-- The name of the variable for the mode. -/
def modeVariable : String := "GEOCLUE_LOG_MODE"

/-- Why logging could not be set up. -/
inductive Error where
  /-- The mode is none of the known ones. -/
  | unknownMode (canonical : String)
  /-- The mode is no text. -/
  | modeNotText (octets : List UInt8)
  /-- The filter cannot be read. -/
  | badFilter (directives : String) (fault : DirectiveFault)
  /-- Logging has been set up already. -/
  | alreadyInstalled

namespace Error

/-- An octet in two hexadecimal digits. -/
def hexOctet (b : UInt8) : List Char :=
  let digit (n : Nat) : Char := Char.ofNat (if n < 10 then 0x30 + n else 0x37 + n)
  [digit (b.toNat / 16), digit (b.toNat % 16)]

/-- Octets between double quotes; those that are no characters are shown in hexadecimal digits. -/
def quoteOctets (octets : List UInt8) : String :=
  String.ofList ('\x22' :: ((Text.Utf8.segments octets).flatMap fun
    | .char c => Text.escapeChar '\x22' c
    | .invalid bs => bs.flatMap fun b => ['\\', 'x'] ++ hexOctet b) ++ ['\x22'])

def reason : Error → String
  | .unknownMode canonical => modeVariable ++ "=" ++ canonical
  | .modeNotText octets =>
    modeVariable ++ ": environment variable was not valid unicode: " ++ quoteOctets octets
  | .badFilter directives fault => directives ++ ": " ++ fault.message
  | .alreadyInstalled => "a global default trace dispatcher has already been set"

def message (e : Error) : String :=
  match e with
  | .alreadyInstalled => "Failed to initialize tracing subscriber: " ++ e.reason
  | _ => "Invalid environment variable: " ++ e.reason

end Error

def Mode.parse (text : String) : Except Error Mode :=
  match Mode.ofString? text with
  | some mode => .ok mode
  | none => .error (.unknownMode (Mode.canonical text))

/-- A request to set up logging. -/
inductive Request where
  /-- In the given mode. -/
  | mode (mode : Mode)
  /-- In the mode that the environment names. -/
  | fromEnvironment

/-- What reads the directives of a filter. -/
abbrev Filter.Reader := String → Except DirectiveFault Filter

/-- What is installed. -/
structure Setup where
  installed : Option Filter := none

namespace Environment

/-- The text of a variable; one that holds no text counts as not set. -/
def text? (held : Option (List UInt8)) : Option String :=
  held.bind Text.Utf8.decode?

/-- The directives of the filter, if the mode logs anything. -/
def directives? (env : Environment) (mode : Mode) : Option String :=
  mode.defaultFilter.map fun ownFilter =>
    (text? env.level).getD ((text? env.fallback).getD ownFilter)

/-- The mode that the environment names; without one it is the silent mode. -/
def namedMode (env : Environment) : Except Error Mode :=
  match env.mode with
  | none => .ok .silent
  | some octets =>
    match Text.Utf8.decode? octets with
    | some text => Mode.parse text
    | none => .error (.modeNotText octets)

def modeOf (env : Environment) : Request → Except Error Mode
  | .mode mode => .ok mode
  | .fromEnvironment => env.namedMode

end Environment

namespace Setup

def isInitialized (s : Setup) : Bool := s.installed.isSome

def install (read : Filter.Reader) (s : Setup) (env : Environment) (mode : Mode) :
    Except Error Unit × Setup :=
  match env.directives? mode with
  | none => (.ok (), s)
  | some directives =>
    match read directives with
    | .error fault => (.error (.badFilter directives fault), s)
    | .ok filter =>
      match s.installed with
      | some _ => (.error .alreadyInstalled, s)
      | none => (.ok (), ⟨some filter⟩)

def serve (read : Filter.Reader) (s : Setup) (env : Environment) (request : Request) :
    Except Error Unit × Setup :=
  match env.modeOf request with
  | .error e => (.error e, s)
  | .ok mode => s.install read env mode

def serveAll (s : Setup) (env : Environment) (requests : List Request)
    (read : Filter.Reader := Filter.ofString) : List (Except Error Unit × Setup) :=
  match requests with
  | [] => []
  | request :: rest =>
    let answer := s.serve read env request
    answer :: answer.2.serveAll env rest read

/-- Whether events of a target and a level are logged. -/
def enables (s : Setup) (target : String) (level : Log.Level) : Bool :=
  s.installed.any fun f => f.enables target level

end Setup

end LocationBroker.Logging
