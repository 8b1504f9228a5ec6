import LocationBroker.Bus.Kind
import LocationBroker.Bus.MatchRule

/-! # The bus

The bus hands out unique names, and keeps who is connected, who owns which name, who exports which
object, who subscribed to what, and every signal sent so far.  It delivers nothing by itself: a
removal returns the changes of ownership to announce, and whoever runs the bus shows them to the
filters.

An operation of a connection names the connection by its unique name, and fails with
`Error.disconnected` once that peer is gone.  A failed operation returns no bus, so it changes
nothing.
-/

namespace LocationBroker

/-- The state of a bus. -/
structure Bus where
  /-- Whether new connections are accepted. -/
  available : Bool := true
  /-- The number of unique names handed out so far. -/
  nextSerial : Nat := 0
  /-- The unique names of the connected peers, in the order of their joining. -/
  peers : List String := []
  /-- The owner of each name that has one. -/
  names : Ledger String String := .empty
  /-- The exporter of each exported object. -/
  objects : Ledger Bus.ObjectPath String := .empty
  /-- The subscriptions with their subscribers, oldest first. -/
  rules : List (String × Bus.MatchRule) := []
  /-- The signals sent so far, oldest first. -/
  emitted : List Bus.Signal := []

namespace Bus

/-- The unique name with a serial. -/
def uniqueName (serial : Nat) : String :=
  ":1." ++ toString serial

def isConnected (bus : Bus) (peer : String) : Bool :=
  bus.peers.contains peer

def ownerOf (bus : Bus) (name : String) : Option String :=
  bus.names.get? name

def exporterOf (bus : Bus) (path : ObjectPath) : Option String :=
  bus.objects.get? path

/-- Whether somebody exports an object at the path. -/
def isExported (bus : Bus) (path : ObjectPath) : Bool :=
  bus.objects.contains path

/-- The paths of the objects that a peer exports, in ascending order. -/
def exportsOf (bus : Bus) (peer : String) : List ObjectPath :=
  (bus.objects.filter fun _ exporter => exporter = peer).keys

def isRouted (bus : Bus) (m : Message) : Bool :=
  bus.rules.any fun r => r.2.covers m

def setAvailable (bus : Bus) (available : Bool) : Bus :=
  { bus with available }

/-! ## Joining and leaving -/

def addPeer (bus : Bus) : String × Bus :=
  let name := uniqueName bus.nextSerial
  (name, { bus with nextSerial := bus.nextSerial + 1, peers := bus.peers ++ [name] })

def connect (bus : Bus) (kind : Kind) : Except Error (String × Bus) :=
  if bus.available then .ok bus.addPeer
  else .error (.connectionFailed kind.text "local bus is not accepting connections")

/-- The changes to announce when a peer leaves: its names in ascending order lose their owner, and
then its unique name. -/
def departures (bus : Bus) (peer : String) : List OwnershipChange :=
  ((bus.names.filter fun _ owner => owner = peer).keys ++ [peer]).map fun name => ⟨name, peer, ""⟩

/-- Takes a peer off the bus with all it owns, and returns the changes to announce.  A peer that is
not connected leaves nothing behind. -/
def removePeer (bus : Bus) (peer : String) : List OwnershipChange × Bus :=
  if bus.isConnected peer then
    (bus.departures peer,
      { bus with
        peers := bus.peers.filter (· ≠ peer)
        names := bus.names.filter fun _ owner => owner ≠ peer
        objects := bus.objects.filter fun _ exporter => exporter ≠ peer
        rules := bus.rules.filter fun r => r.1 ≠ peer })
  else ([], bus)

/-- A peer that is not connected changes nothing by leaving. -/
theorem removePeer_of_not_isConnected {bus : Bus} {peer : String}
    (h : bus.isConnected peer = false) : bus.removePeer peer = ([], bus) := by
  simp [removePeer, h]

/-! ## Operations of a connection -/

/-- Lets an operation go on only while its peer is connected. -/
def whileConnected (bus : Bus) (peer : String) (next : Except Error Bus) : Except Error Bus :=
  if bus.isConnected peer then next else .error .disconnected

/-- An operation succeeds only for a connected peer. -/
theorem whileConnected_eq_ok_iff {bus : Bus} {peer : String} {next : Except Error Bus}
    {after : Bus} :
    bus.whileConnected peer next = .ok after ↔ bus.isConnected peer = true ∧ next = .ok after := by
  rw [whileConnected]
  split <;> simp [*]

/-- Claims a name; claiming one's own name again is no fault. -/
def requestName (bus : Bus) (peer name : String) : Except Error Bus :=
  bus.whileConnected peer <|
    match bus.ownerOf name with
    | some owner => if owner = peer then .ok bus else .error (.nameTaken name)
    | none => .ok { bus with names := bus.names.insert name peer }

def addMatch (bus : Bus) (peer : String) (rule : MatchRule) : Except Error Bus :=
  bus.whileConnected peer <| .ok { bus with rules := bus.rules ++ [(peer, rule)] }

/-- Exports an object, if nobody exports one at the path. -/
def registerObject (bus : Bus) (peer : String) (path : ObjectPath) : Except Error Bus :=
  bus.whileConnected peer <|
    if bus.isExported path then .error (.objectAlreadyRegistered path.text)
    else .ok { bus with objects := bus.objects.insert path peer }

/-- Withdraws an object that the connection itself exports. -/
def unregisterObject (bus : Bus) (peer : String) (path : ObjectPath) : Except Error Bus :=
  bus.whileConnected peer <|
    if bus.exporterOf path = some peer then .ok { bus with objects := bus.objects.erase path }
    else .error (.objectNotRegistered path.text)

/-- Sends a signal.  The bus fills in the sender, whatever the signal says. -/
def emitSignal (bus : Bus) (peer : String) (signal : Signal) : Except Error Bus :=
  bus.whileConnected peer <|
    .ok { bus with emitted := bus.emitted ++ [{ signal with sender := some peer }] }

end Bus

end LocationBroker
