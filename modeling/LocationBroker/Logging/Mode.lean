import LocationBroker.Text.Blank

/-! # Modes of logging

A mode says whether events are logged at all, and how many of them if nothing else is said.
-/

namespace LocationBroker.Logging

/-- How events are logged. -/
inductive Mode where
  /-- Not at all. -/
  | silent
  /-- In short lines. -/
  | development
  /-- With all there is to tell. -/
  | debug
  deriving DecidableEq, Inhabited

namespace Mode

/-- The name of a mode. -/
def name : Mode → String
  | .silent => "silent"
  | .development => "development"
  | .debug => "debug"

/-- The filter that a mode has if nothing else is said; the silent mode has none. -/
def defaultFilter : Mode → Option String
  | .silent => none
  | .development => some "info"
  | .debug => some "debug"

def known : List (String × Mode) := [
  ("silent", .silent), ("", .silent), ("development", .development), ("dev", .development),
  ("debug", .debug)]

/-- The form in which a text is compared with the names: without blanks around it, and in small
letters. -/
def canonical (text : String) : String := (Text.trim text).toLower

def ofString? (text : String) : Option Mode :=
  (known.find? fun k => k.1 = canonical text).map (·.2)

end Mode

end LocationBroker.Logging
