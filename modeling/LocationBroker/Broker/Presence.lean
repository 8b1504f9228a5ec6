import LocationBroker.Bus.MatchRule
import LocationBroker.Log.Effect

/-! # Presence

The broker watches the announcements of the bus for names that lose their owner.  Names that gain an
owner, or go from one peer to another, are none of its concern.
-/

namespace LocationBroker.Broker.Presence

open Log (Effect Effects)

/-- The subscription through which the announcements reach the broker. -/
def rule : Bus.MatchRule := .ownershipChanges

/-- The change by which a name lost its owner, if the message announces one. -/
def departure? (m : Bus.Message) : Option Bus.OwnershipChange :=
  (Bus.OwnershipChange.ofMessage? m).filter fun c => c.isDeparture

/-- The name that lost its owner, if the message announces one. -/
def departed? (m : Bus.Message) : Option String :=
  (departure? m).map (·.name)

def effects (m : Bus.Message) : Effects :=
  match departure? m with
  | some c => [.event (.nameLeft c.name c.oldOwner)]
  | none => []

end LocationBroker.Broker.Presence
