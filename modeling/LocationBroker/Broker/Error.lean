import LocationBroker.Broker.Config

/-! # Why the broker refuses

The causes for which an operation of the broker fails, and their wording.
-/

namespace LocationBroker.Broker

/-- The cause of a failed operation of the broker. -/
inductive Error where
  /-- The broker never joined the bus. -/
  | notConnected
  | bus (cause : Bus.Error)
  | provider (cause : Provider.Error)
  /-- No live session has the path. -/
  | sessionNotFound (path : String)
  | configuration (fault : ConfigFault)
  /-- The worker is gone. -/
  | workerDisconnected

/-- The wording of a cause. -/
def Error.message : Error → String
  | .notConnected => "Master is not connected to the bus"
  | .bus cause => "Bus error: " ++ cause.message
  | .provider cause => "Provider error: " ++ cause.message
  | .sessionNotFound path => "Session " ++ path ++ " not found"
  | .configuration fault => "Invalid configuration: " ++ fault.message
  | .workerDisconnected => "Master worker has shut down"

end LocationBroker.Broker
