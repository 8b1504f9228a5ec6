import LocationBroker.Bus.ObjectPath
import LocationBroker.Provider.Constraints
import LocationBroker.Text.Quoted

/-! # Sessions

A session belongs to the peer that asked for it and holds what that peer requires of providers.  A
hook can be attached to it, to be run when the session is destroyed.
-/

namespace LocationBroker

/-- What is run when a session is destroyed. -/
structure Session.Hook where
  /-- Tells the hook from others. -/
  tag : String
  /-- Whether running the hook ends the worker that runs it. -/
  aborts : Bool := false
  deriving DecidableEq

/-- One client of the broker. -/
structure Session where
  /-- The peer that the session belongs to; empty if it is not known. -/
  owner : String
  path : Bus.ObjectPath
  /-- What the client last required; every provider will do until it requires something. -/
  requirements : Provider.Constraints := .any
  hook : Option Session.Hook := none

namespace Session

/-- The session on one line, with the names of its fields. -/
def describe (s : Session) : String :=
  "Session \x7b owner: " ++ Text.quote s.owner ++ ", path: ObjectPath(" ++ Text.quote s.path.text
    ++ "), requirements: " ++ s.requirements.describe ++ ", has_teardown: "
    ++ Provider.Constraints.boolText s.hook.isSome ++ " \x7d"

end Session

end LocationBroker
