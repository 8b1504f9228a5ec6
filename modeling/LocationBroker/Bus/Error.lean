/-! # Why a bus refuses

The causes for which an operation on the bus fails, and their wording.
-/

namespace LocationBroker.Bus

/-- The cause of a failed operation on the bus. -/
inductive Error where
  /-- No connection to that bus could be opened. -/
  | connectionFailed (bus reason : String)
  /-- The text is no object path. -/
  | invalidObjectPath (text : String)
  /-- Somebody exports an object at the path already. -/
  | objectAlreadyRegistered (path : String)
  /-- The connection exports no object at the path. -/
  | objectNotRegistered (path : String)
  /-- Another peer owns the name. -/
  | nameTaken (name : String)
  /-- The peer is no longer on the bus. -/
  | disconnected
  deriving DecidableEq

/-- The wording of a cause. -/
def Error.message : Error → String
  | .connectionFailed bus reason => "Failed to connect to the " ++ bus ++ " bus: " ++ reason
  | .invalidObjectPath text => "Invalid object path '" ++ text ++ "'"
  | .objectAlreadyRegistered path => "Object already registered at " ++ path
  | .objectNotRegistered path => "No object registered at " ++ path
  | .nameTaken name => "Bus name " ++ name ++ " is already owned"
  | .disconnected => "Bus connection closed"

end LocationBroker.Bus
