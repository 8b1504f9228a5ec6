import LocationBroker.Broker.Worker
import LocationBroker.Host.Shared

/-! # A host

A host is one machine with all that brokers need: a bus with some connections, files, the state of
the network, a shared source of descriptors, registries of their own, brokers, and workers that have
taken over a broker each.

An operation returns its result, the host as it is afterwards, and the effects that are due to the
caller's own thread.  What workers tell the log is kept in `workerLog` until a worker ends.
-/

namespace LocationBroker

open Log (Effect Effects Event)

/-- A broker and where its descriptors come from: a directory, or else the shared source. -/
structure Host.Slot (α : Type) where
  content : α
  directory : Option Provider.Directory

/-- The state of a host.  Brokers and workers keep their numbers when others are gone. -/
structure Host where
  bus : Bus := {}
  connectivity : Provider.Connectivity := .unknown
  files : Files := {}
  shared : Host.Shared := {}
  registry : Provider.Registry := {}
  sessions : Option Session.Registry := none
  /-- The unique names of the connections that were opened. -/
  connections : List String := []
  brokers : List (Option (Host.Slot Broker.Service)) := []
  workers : List (Option (Host.Slot (Broker.Worker Unit))) := []
  workerLog : List Event := []

namespace Host

/-- The slot of a number, unless it is empty. -/
def occupied {α : Type} (slots : List (Option (Slot α))) (n : Nat) : Option (Slot α) :=
  slots[n]?.join

/-! ## Peers -/

def connect (h : Host) (kind : Bus.Kind) : Except Bus.Error String × Host × Effects :=
  match h.bus.connect kind with
  | .error e => (.error e, h, [])
  | .ok (peer, bus) =>
    (.ok peer, { h with bus, connections := h.connections ++ [peer] },
      [.event (.connectionOpened peer kind)])

/-- Lets a peer join that only makes calls. -/
def addPeer (h : Host) : String × Host :=
  let (peer, bus) := h.bus.addPeer
  (peer, { h with bus })

def removePeer (h : Host) (peer : String) : List Bus.OwnershipChange × Host × Effects :=
  let (changes, bus) := h.bus.removePeer peer
  (changes, { h with bus }, if changes.isEmpty then [] else [.event (.peerLeft peer)])

/-! ## Providers -/

def sourceAt (h : Host) (directory : Option Provider.Directory) : Provider.Source :=
  match directory with
  | some d => d.source h.files
  | none => h.shared.source

/-- The host after the visits to the source that are among the effects. -/
def visited (h : Host) (directory : Option Provider.Directory) (effects : Effects) : Host :=
  match directory with
  | some _ => h
  | none => { h with shared := h.shared.visited effects }

def loadRegistry (h : Host) (directory : Option Provider.Directory) :
    Provider.Report × Host × Effects :=
  let (registry, report, effects) := h.registry.load (h.sourceAt directory)
  (report, { h with registry }.visited directory effects, effects)

def releaseRegistry (h : Host) : Nat × Host × Effects :=
  let (registry, released, effects) := h.registry.release
  (released, { h with registry }, effects)

def setConnectivity (h : Host) (c : Provider.Connectivity) : Host × Effects :=
  if h.connectivity = c then (h, [])
  else ({ h with connectivity := c }, [.event (.connectivityChanged h.connectivity c)])

/-! ## Sessions -/

/-- Creates a session in the host's own registry of them. -/
def createSession (h : Host) (r : Session.Registry) (owner : String) : Session × Host × Effects :=
  let (session, r, effects) := r.create owner
  (session, { h with sessions := some r }, effects)

/-- Destroys a session in the host's own registry of them. -/
def destroySession (h : Host) (r : Session.Registry) (path : Bus.ObjectPath) :
    Option Session × Host × Effects :=
  let (session, r, registry, effects) := r.destroy path h.registry
  (session, { h with sessions := some r, registry }, effects)

/-! ## Brokers -/

/-- Starts a broker.  A configuration that cannot be used leaves its number without a broker. -/
def startBroker (h : Host) (c : Broker.Config) (fromDirectory : Bool) :
    Except Broker.Error Broker.Service × Host × Effects :=
  let directory := if fromDirectory then some c.directory else none
  match Broker.Service.start c h.bus (h.sourceAt directory) with
  | .error e => (.error e, { h with brokers := h.brokers ++ [none] }, [])
  | .ok o =>
    let h := { h with
      bus := o.bus
      brokers := h.brokers ++ [some (Slot.mk o.service directory)] }
    (.ok o.service, h.visited directory o.effects, o.effects)

def withBroker {α : Type} (h : Host) (n : Nat) (slot : Slot Broker.Service)
    (act : Broker.Service → Bus → Provider.Source → Broker.Outcome α) : α × Host × Effects :=
  let o := act slot.content h.bus (h.sourceAt slot.directory)
  let h := { h with
    bus := o.bus
    brokers := h.brokers.set n (some { slot with content := o.service }) }
  (o.result, h.visited slot.directory o.effects, o.effects)

/-- Shows a broker the changes that the bus routes to somebody. -/
def showRouted (h : Host) (n : Nat) (slot : Slot Broker.Service) :
    List Bus.OwnershipChange → Host × Effects
  | [] => (h, [])
  | change :: rest =>
    let current := (occupied h.brokers n).getD slot
    let (h, first) : Host × Effects :=
      if h.bus.isRouted change.toMessage then
        (h.withBroker n current fun s bus _ => s.filter bus change.toMessage).2
      else (h, [])
    let (h, others) := h.showRouted n slot rest
    (h, first ++ others)

/-- Takes a peer off the bus and shows a broker what the bus routes of it. -/
def leaveBroker (h : Host) (n : Nat) (slot : Slot Broker.Service) (peer : String) :
    List Bus.OwnershipChange × Host × Effects :=
  let (changes, h, leaving) := h.removePeer peer
  let (h, showing) := h.showRouted n slot changes
  (changes, h, leaving ++ showing)

/-! ## Workers -/

def spawnWorker (h : Host) (n : Nat) (slot : Slot Broker.Service) : Host :=
  let (worker, effects) := Broker.Worker.spawn slot.content
  { h with
    brokers := h.brokers.set n none
    workers := h.workers ++ [some (Slot.mk worker slot.directory)]
    workerLog := h.workerLog ++ effects.events }

def turnWorker (h : Host) (n : Nat) (slot : Slot (Broker.Worker Unit)) :
    Option Broker.Reply × Host × Effects :=
  match slot.content.turn h.bus (h.sourceAt slot.directory) with
  | none => (none, h, [])
  | some t =>
    let h := { h with
      bus := t.bus
      workers := h.workers.set n (some { slot with content := t.worker })
      workerLog := h.workerLog ++ t.effects.events }
    (t.reply.map (·.2), h.visited slot.directory t.effects, t.effects)

/-- Sends a worker a command and lets it serve it.  The effects are those of the worker. -/
def sendWorker (h : Host) (n : Nat) (slot : Slot (Broker.Worker Unit)) (c : Broker.Command) :
    Except Broker.Error (Option Broker.Reply) × Host × Effects :=
  match slot.content.send ⟨(), c⟩ with
  | .error e => (.error e, h, [])
  | .ok worker =>
    let (reply, h, effects) := h.turnWorker n { slot with content := worker }
    (.ok reply, h, effects)

/-- Delivers messages to a worker, until one cannot be delivered. -/
def deliverAll (h : Host) (n : Nat) (slot : Slot (Broker.Worker Unit)) :
    List Bus.Message → Except Broker.Error Unit × Host × Effects
  | [] => (.ok (), h, [])
  | m :: rest =>
    let current := (occupied h.workers n).getD slot
    match h.sendWorker n current (.deliver m) with
    | (.error e, h, effects) => (.error e, h, effects)
    | (.ok _, h, effects) =>
      let (result, h, others) := h.deliverAll n slot rest
      (result, h, effects ++ others)

/-- Ends a worker, and gives back what workers have told the log.  The effects are those of the
caller. -/
def stopWorker (h : Host) (n : Nat) (slot : Slot (Broker.Worker Unit)) :
    List Event × Host × Effects :=
  let (_, h, _) := h.sendWorker n slot .shutdown
  let crashed : Effects :=
    match slot.content.phase with
    | .crashed => [.event .workerCrashed]
    | _ => []
  (h.workerLog, { h with workers := h.workers.set n none, workerLog := [] }, crashed)

end Host

end LocationBroker
