/-! # Connectivity

The coarse state of the machine's network connection, which every provider record shows.
-/

namespace LocationBroker.Provider

/-- The state of the network connection. -/
inductive Connectivity where
  | unknown
  | offline
  | acquiring
  | online
  deriving DecidableEq, Inhabited

namespace Connectivity

/-- The name of a state in documents. -/
def name : Connectivity → String
  | .unknown => "unknown"
  | .offline => "offline"
  | .acquiring => "acquiring"
  | .online => "online"

def title : Connectivity → String
  | .unknown => "Unknown"
  | .offline => "Offline"
  | .acquiring => "Acquiring"
  | .online => "Online"

def known : List (String × Connectivity) :=
  [.unknown, .offline, .acquiring, .online].map fun c => (c.name, c)

end Connectivity

end LocationBroker.Provider
