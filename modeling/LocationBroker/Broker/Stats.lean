/-! # Counters of the broker -/

namespace LocationBroker.Broker

/-- The counters of a broker at a moment. -/
structure Stats where
  sessions : Nat
  providers : Nat
  /-- How often the providers were released because no session was left. -/
  releases : Nat
  /-- The serial of the next session. -/
  nextSerial : Nat
  connected : Bool
  deriving DecidableEq

/-- The counters on one line. -/
def Stats.text (s : Stats) : String :=
  toString s.sessions ++ " sessions, " ++ toString s.providers ++ " providers ("
    ++ toString s.releases ++ " releases), next serial " ++ toString s.nextSerial ++ ", "
    ++ (if s.connected then "connected" else "not connected")

end LocationBroker.Broker
