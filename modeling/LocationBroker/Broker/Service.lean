import LocationBroker.Broker.Presence
import LocationBroker.Bus.Basic
import LocationBroker.Session.Registry

/-! # The broker

The broker joins the bus under its name and exports an object of its own.  Clients call that object
to obtain sessions, each exported as an object too; the broker remembers what the client of a
session requires and answers which providers will do.  It destroys a session when its client asks
for it or has left the bus.

An operation takes the bus as it is, and the source of descriptors as it answers at that moment, and
returns both the broker and the bus as they are afterwards.  A broker that could not join the bus is
there, but not functional.
-/

namespace LocationBroker.Broker

open Log (Effect Effects)

def masterInterface : String := "org.freedesktop.Geoclue.Master"

def createMethod : String := "Create"

def optionsChanged : String := "OptionsChanged"

/-- The name of the error with which a call is answered. -/
def failedError : String := "org.freedesktop.DBus.Error.Failed"

/-- The state of a broker. -/
structure Service where
  config : Config
  /-- The path of the broker's own object. -/
  masterPath : Bus.ObjectPath
  /-- The broker's unique name, if it could join the bus. -/
  connection : Option String := none
  sessions : Session.Registry
  providers : Provider.Registry := {}

/-- What an operation of a broker leads to, if every hook that it runs comes to its end. -/
structure Outcome (α : Type) where
  result : α
  service : Service
  bus : Bus
  effects : Effects

namespace Service

/-- The broker could join the bus. -/
def isFunctional (s : Service) : Bool := s.connection.isSome

def stats (s : Service) : Stats where
  sessions := s.sessions.sessions.length
  providers := s.providers.records.length
  releases := s.providers.releases
  nextSerial := s.sessions.nextSerial
  connected := s.isFunctional

/-! ## Starting -/

/-- Does one thing after the other on the bus until one fails.  What was done before stays done. -/
def inTurn (bus : Bus) : List (Bus → Except Bus.Error Bus) → Option Bus.Error × Bus
  | [] => (none, bus)
  | act :: rest =>
    match act bus with
    | .ok bus => inTurn bus rest
    | .error e => (some e, bus)

/-- Joins the bus: opens a connection, claims the name, subscribes, and exports the broker's own
object. -/
def join (c : Config) (masterPath : Bus.ObjectPath) (bus : Bus) :
    Except Bus.Error String × Bus × Effects :=
  match bus.connect c.bus with
  | .error e => (.error e, bus, [])
  | .ok (peer, bus) =>
    let opened : Effects := [.event (.connectionOpened peer c.bus)]
    match inTurn bus [
        fun b => b.requestName peer c.serviceName,
        fun b => b.addMatch peer Presence.rule,
        fun b => b.registerObject peer masterPath] with
    | (some e, bus) => (.error e, bus, opened)
    | (none, bus) => (.ok peer, bus, opened)

/-- The broker of a configuration that can be used, before it has joined the bus. -/
def ofConfig (c : Config) : Except ConfigFault Service :=
  match c.fault? with
  | some fault => .error fault
  | none =>
    match Bus.ObjectPath.parse c.masterPath, Bus.ObjectPath.parse c.sessionPathPrefix with
    | .ok masterPath, .ok base => .ok { config := c, masterPath, sessions := { base } }
    | .error e, _ => .error (.other e.message)
    | _, .error e => .error (.other e.message)

def reload (s : Service) (source : Provider.Source) : Service × Provider.Report × Effects :=
  let (providers, report, effects) := s.providers.load source
  ({ s with providers }, report, effects)

/-- Starts a broker.  Only a configuration that cannot be used is an error; a broker that cannot
join the bus is started all the same, and holds no providers. -/
def start (c : Config) (bus : Bus) (source : Provider.Source) : Except Error (Outcome Unit) :=
  match ofConfig c with
  | .error fault => .error (.configuration fault)
  | .ok s =>
    match join c s.masterPath bus with
    | (.error e, bus, opened) => .ok {
        result := ()
        service := s
        bus
        effects := opened ++ [.event (.brokerNotJoined c.bus (.bus e))] }
    | (.ok peer, bus, opened) =>
      let (service, _, loading) := { s with connection := some peer }.reload source
      .ok {
        result := ()
        service
        bus
        effects := opened ++ [.event (.brokerJoined c.bus peer c.serviceName)] ++ loading }

/-! ## Creating sessions -/

/-- Loads the descriptors if there are no providers and the policy asks for it. -/
def reloadIfEmpty (s : Service) (source : Provider.Source) : Service × Effects :=
  if s.providers.records.isEmpty ∧ s.config.reloadPolicy = .onDemand then
    let (s, _, loading) := s.reload source
    (s, .event .registryEmpty :: loading)
  else (s, [])

/-- Exports an object, if the broker has a connection. -/
def exportObject (s : Service) (bus : Bus) (path : Bus.ObjectPath) : Except Error Bus :=
  match s.connection with
  | some peer => (bus.registerObject peer path).mapError .bus
  | none => .error .notConnected

/-- Creates a session for the caller and exports it.  A session that cannot be exported is destroyed
again; its serial is used up. -/
def create (s : Service) (bus : Bus) (source : Provider.Source) (call : Bus.MethodCall) :
    Outcome (Except Error Bus.ObjectPath) :=
  if s.connection.isNone then { result := .error .notConnected, service := s, bus, effects := [] }
  else
    let owner := call.sender.getD ""
    let (s, loading) := s.reloadIfEmpty source
    let (session, sessions, creating) := s.sessions.create owner
    -- The connection is looked at once more, behind what was loaded.
    match s.exportObject bus session.path with
    | .ok bus => {
        result := .ok session.path
        service := { s with sessions }
        bus
        effects := loading ++ creating ++ [.event (.sessionExported session.path owner)] }
    | .error e =>
      let (_, sessions, providers, destroying) := sessions.destroy session.path s.providers
      { result := .error e
        service := { s with sessions, providers }
        bus
        effects := loading ++ creating ++ [.event (.exportFailed session.path owner e)]
          ++ destroying }

/-- The call asks the broker's own object for a session. -/
def isCreation (s : Service) (call : Bus.MethodCall) : Bool :=
  decide (call.path = s.masterPath) && call.member == createMethod
    && call.interface.all (· == masterInterface)

/-- Answers a call of the broker's own object; other calls are left alone. -/
def handleCall (s : Service) (bus : Bus) (source : Provider.Source) (call : Bus.MethodCall) :
    Outcome (Option Bus.MethodReply) :=
  if s.isCreation call then
    let o := s.create bus source call
    { o with result := some <| match o.result with
        | .ok path => .returned [.str path.text]
        | .error e => .failed failedError e.message }
  else { result := none, service := s, bus, effects := [] }

/-! ## Destroying sessions -/

def withdraw (s : Service) (bus : Bus) (path : Bus.ObjectPath) : Bus × Effects :=
  match s.connection with
  | none => (bus, [.event (.withdrawalWithoutBus path)])
  | some peer =>
    match bus.unregisterObject peer path with
    | .ok bus => (bus, [])
    | .error e => (bus, [.event (.withdrawalFailed path e)])

def teardown (s : Service) (bus : Bus) (path : Bus.ObjectPath) : Outcome Unit :=
  let (bus, withdrawing) := s.withdraw bus path
  let (_, sessions, providers, destroying) := s.sessions.destroy path s.providers
  { result := (), service := { s with sessions, providers }, bus,
    effects := withdrawing ++ destroying }

/-- Withdraws and destroys the sessions of several paths, one after the other. -/
def teardownAll (s : Service) (bus : Bus) : List Bus.ObjectPath → Outcome Unit
  | [] => { result := (), service := s, bus, effects := [] }
  | path :: rest =>
    let first := s.teardown bus path
    let others := first.service.teardownAll first.bus rest
    { others with effects := first.effects ++ others.effects }

/-- Destroys every session of a client that has left, oldest first, and says how many there were. -/
def depart (s : Service) (bus : Bus) (name : String) : Outcome Nat :=
  let paths := s.sessions.pathsOf name
  let o := s.teardownAll bus paths
  { result := paths.length
    service := o.service
    bus := o.bus
    effects := o.effects
      ++ if paths.isEmpty then [] else [.event (.clientRemoved paths.length name)] }

/-- Watches a message for clients that leave.  The message is always left to other filters. -/
def filter (s : Service) (bus : Bus) (m : Bus.Message) : Outcome Bus.FilterVerdict :=
  match Presence.departed? m with
  | none => { result := .notYetHandled, service := s, bus, effects := [] }
  | some name =>
    let o := s.depart bus name
    { result := .notYetHandled, service := o.service, bus := o.bus,
      effects := Presence.effects m ++ o.effects }

/-! ## Operations on a session -/

/-- The path of the live session that a text names. -/
def sessionPath (s : Service) (text : String) : Except Error Bus.ObjectPath :=
  match s.sessions.pathAt? text with
  | some path => .ok path
  | none => .error (.sessionNotFound text)

/-- The live session that a text names.  It is looked up again at the path that was found. -/
def sessionAt (s : Service) (text : String) : Except Error Session :=
  match s.sessionPath text with
  | .ok path =>
    match s.sessions.get? path with
    | some session => .ok session
    | none => .error (.sessionNotFound text)
  | .error e => .error e

/-- Does something with what was found, if it was. -/
def onFound {α β : Type} (s : Service) (bus : Bus) (found : Except Error β)
    (act : β → Outcome α) : Outcome (Except Error α) :=
  match found with
  | .error e => { result := .error e, service := s, bus, effects := [] }
  | .ok x =>
    let o := act x
    { result := .ok o.result, service := o.service, bus := o.bus, effects := o.effects }

/-- Does something with the live session that a text names. -/
def onSession {α : Type} (s : Service) (bus : Bus) (text : String) (act : Session → Outcome α) :
    Outcome (Except Error α) :=
  s.onFound bus (s.sessionAt text) act

/-- Destroys a session because its client asks for it. -/
def release (s : Service) (bus : Bus) (path : String) : Outcome (Except Error Unit) :=
  s.onFound bus (s.sessionPath path) fun path =>
    let o := s.teardown bus path
    { o with effects := o.effects ++ [.event (.sessionReleased path)] }

def attachHook (s : Service) (bus : Bus) (path : String) (hook : Session.Hook) :
    Outcome (Except Error Unit) :=
  s.onSession bus path fun session =>
    { result := (), bus, effects := []
      service := { s with sessions := s.sessions.attachHook session.path hook } }

def setRequirements (s : Service) (bus : Bus) (path : String) (c : Provider.Constraints) :
    Outcome (Except Error Unit) :=
  let o := s.onSession bus path fun session =>
    { result := (), bus, effects := []
      service := { s with sessions := s.sessions.setRequirements session.path c } }
  { o with effects := .event (.requirementsStated path c) :: o.effects }

/-- The providers that satisfy what the client of a session requires. -/
def providersFor (s : Service) (bus : Bus) (path : String) :
    Outcome (Except Error (List Provider.Record)) :=
  s.onSession bus path fun session =>
    { result := s.providers.filter session.requirements, service := s, bus
      effects := s.providers.filterEffects session.requirements }

/-- Announces changed options to all who subscribed. -/
def announceOptions (s : Service) (bus : Bus) (options : Ledger String String) :
    Outcome (Except Error Unit) :=
  match s.connection with
  | none => { result := .error .notConnected, service := s, bus, effects := [] }
  | some peer =>
    let signal : Bus.Signal := {
      path := s.masterPath
      interface := masterInterface
      member := optionsChanged
      args := [.dict options] }
    let told : Effects := [.event (.optionsAnnounced options.size)]
    match bus.emitSignal peer signal with
    | .ok bus => { result := .ok (), service := s, bus, effects := told }
    | .error e => { result := .error (.bus e), service := s, bus, effects := told }

end Service

end LocationBroker.Broker
