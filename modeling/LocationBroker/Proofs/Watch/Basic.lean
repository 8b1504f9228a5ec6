import LocationBroker.Proofs.Broker.Departure
import LocationBroker.Proofs.Broker.Start

/-! # A broker that is told of departures

The bus only returns the changes of ownership that it wants to announce.  Somebody has to show them
to the broker, and may do so at any time later, but in order.  A `Watch` is a bus and a broker with
the changes that the broker has not been shown yet.
-/

namespace LocationBroker

/-- A bus, a broker on it, and the changes that the broker is still to be shown. -/
structure Watch where
  bus : Bus
  broker : Broker.Service
  queue : List Bus.OwnershipChange := []

namespace Watch

/-- Something that happens to a broker or around it. -/
inductive Action where
  /-- Something is done to the bus, and what it announces is put off. -/
  | bus (action : Bus.Action)
  /-- The oldest change that was put off is shown to the broker. -/
  | deliver
  /-- The broker is asked for something. -/
  | ask (operation : Broker.Operation)

/-- Whether somebody can ask for the operation: a caller is connected, if it is known. -/
def admits (w : Watch) (operation : Broker.Operation) : Bool :=
  operation.owner?.all fun owner => owner.isEmpty || w.bus.isConnected owner

def perform (w : Watch) (operation : Broker.Operation) : Watch :=
  let o := w.broker.perform w.bus operation
  { w with bus := o.bus, broker := o.service }

def step (w : Watch) : Action → Watch
  | .bus action =>
    { w with bus := w.bus.step action, queue := w.queue ++ w.bus.announcements action }
  | .deliver =>
    match w.queue with
    | [] => w
    | c :: rest => { w with queue := rest }.perform (.filter c.toMessage)
  | .ask operation => if w.admits operation then w.perform operation else w

def run (w : Watch) (actions : List Action) : Watch :=
  actions.foldl step w

theorem isConnected_perform {w : Watch} (h : w.broker.sessions.Numbered)
    (operation : Broker.Operation) (peer : String) :
    (w.perform operation).bus.isConnected peer = w.bus.isConnected peer := by
  obtain ⟨hpeers, -⟩ := Broker.Service.perform_peers h w.bus operation
  rw [perform, Bus.isConnected, hpeers]
  rfl

theorem deliver_sessions {w : Watch} (h : w.broker.sessions.Numbered) {c : Bus.OwnershipChange}
    {rest : List Bus.OwnershipChange} (hqueue : w.queue = c :: rest)
    (hdeparture : c.isDeparture = true) :
    (w.step .deliver).broker.sessions.sessions =
      w.broker.sessions.sessions.filter fun x => x.owner = "" ∨ x.owner ≠ c.name := by
  rw [step, hqueue]
  exact Broker.Service.filter_toMessage_sessions h w.bus hdeparture

end Watch

end LocationBroker
