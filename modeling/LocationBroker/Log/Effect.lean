import LocationBroker.Log.Event
import LocationBroker.Session.Basic

/-! # Effects

An operation of the broker returns, beside its result, what it did on the way, in order: the events
it told the log, its visits to the source of descriptors, and the hooks it ran.
-/

namespace LocationBroker.Log

/-- Something that an operation did. -/
inductive Effect where
  | event (e : Event)
  /-- The source was listed. -/
  | listed
  /-- A descriptor was read from the source. -/
  | read (id : String)
  /-- A hook was run, and was given the session that it was attached to. -/
  | hookRun (hook : Session.Hook) (session : Session)

/-- What an operation did, in order. -/
abbrev Effects := List Effect

namespace Effects

def events (es : Effects) : List Event :=
  es.filterMap fun
    | .event e => some e
    | _ => none

def alarms (es : Effects) : List Event :=
  (events es).filter fun e => e.level.isAlarm

/-- The hooks that were run, each with its session. -/
def hookRuns (es : Effects) : List (Session.Hook × Session) :=
  es.filterMap fun
    | .hookRun hook session => some (hook, session)
    | _ => none

def lists (es : Effects) : Nat :=
  es.countP fun
    | .listed => true
    | _ => false

/-- The descriptors that were read from the source, in order. -/
def reads (es : Effects) : List String :=
  es.filterMap fun
    | .read id => some id
    | _ => none

end Effects

end LocationBroker.Log
