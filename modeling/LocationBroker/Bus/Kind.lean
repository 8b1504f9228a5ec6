/-! # The two buses

A machine runs one bus for the system and one for each login session.
-/

namespace LocationBroker.Bus

/-- Which bus a connection is opened on. -/
inductive Kind where
  | session
  | system
  deriving DecidableEq, Inhabited

/-- The name of the bus in texts and documents. -/
def Kind.text : Kind → String
  | .session => "session"
  | .system => "system"

def Kind.all : List Kind := [.session, .system]

end LocationBroker.Bus
