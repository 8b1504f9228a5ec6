import LocationBroker.Broker.Error
import LocationBroker.Broker.Stats
import LocationBroker.Log.Level
import LocationBroker.Provider.Connectivity
import LocationBroker.Provider.Constraints
import LocationBroker.Provider.Report
import LocationBroker.Provider.Source

/-! # Events

Everything that the parts of the broker tell the log, with the level and the wording of each event.
-/

namespace LocationBroker.Log

/-- What an event tells. -/
inductive Event where
  -- the bus
  | connectionOpened (peer : String) (bus : Bus.Kind)
  | peerLeft (peer : String)
  -- providers
  | connectivityChanged (before after : Provider.Connectivity)
  | scanned (note : Provider.ScanNote)
  | listingFailed (cause : Provider.Error)
  | providerLoaded (name service : String) (accuracy : Provider.Accuracy)
  | descriptorSkipped (id : String) (cause : Provider.Error)
  | recordsKept (count : Nat)
  | registryLoaded (location : String) (report : Provider.Report)
  | providersReleased (count : Nat)
  | providersMatched (matching all : Nat) (constraints : Provider.Constraints)
  -- sessions
  | sessionCreated (path : Bus.ObjectPath) (owner : String)
  | sessionDestroyed (path : Bus.ObjectPath) (owner : String) (remaining : Nat)
  | lastSessionGone (released : Nat)
  -- the broker
  | nameLeft (name owner : String)
  | brokerJoined (bus : Bus.Kind) (peer service : String)
  | brokerNotJoined (bus : Bus.Kind) (cause : Broker.Error)
  | registryEmpty
  | exportFailed (path : Bus.ObjectPath) (owner : String) (cause : Broker.Error)
  | sessionExported (path : Bus.ObjectPath) (owner : String)
  | clientRemoved (sessions : Nat) (name : String)
  | withdrawalFailed (path : Bus.ObjectPath) (cause : Bus.Error)
  | withdrawalWithoutBus (path : Bus.ObjectPath)
  | sessionReleased (path : Bus.ObjectPath)
  | requirementsStated (path : String) (constraints : Provider.Constraints)
  | optionsAnnounced (count : Nat)
  -- the worker
  | workerStarted (stats : Broker.Stats)
  | workerStopping
  | workerStopped (stats : Broker.Stats)
  | workerCrashed

namespace Event

/-- The level of an event. -/
def level : Event → Level
  | .brokerNotJoined .. | .workerCrashed => .error
  | .listingFailed .. | .descriptorSkipped .. | .recordsKept .. | .exportFailed ..
  | .withdrawalFailed .. | .withdrawalWithoutBus .. => .warn
  | .scanned (.counted ..) | .registryLoaded .. | .providersReleased .. | .brokerJoined ..
  | .sessionExported .. | .sessionReleased .. | .workerStarted .. | .workerStopping
  | .workerStopped .. => .info
  | .scanned (.accepted ..) | .scanned (.ignored ..) | .connectionOpened .. | .peerLeft ..
  | .connectivityChanged .. | .providerLoaded .. | .providersMatched .. | .sessionCreated ..
  | .sessionDestroyed .. | .lastSessionGone .. | .nameLeft .. | .registryEmpty
  | .clientRemoved .. | .requirementsStated .. | .optionsAnnounced .. => .debug

/-- The wording of a note on an entry of a directory. -/
def noteMessage : Provider.ScanNote → String
  | .counted dir 0 => "No providers found in " ++ dir
  | .counted dir entries => "Found " ++ toString entries ++ " entries in " ++ dir
  | .accepted name => "  " ++ name
  | .ignored name => "  " ++ name ++ " - ignored"

def message : Event → String
  | .connectionOpened peer bus => s!"Connection {peer} opened on local {bus.text} bus"
  | .peerLeft peer => s!"Peer {peer} left the local bus"
  | .connectivityChanged before after =>
    s!"Connectivity status {before.title} -> {after.title}"
  | .scanned note => noteMessage note
  | .listingFailed cause => cause.message
  | .providerLoaded name service accuracy =>
    s!"Loaded provider {name} ({service}, accuracy {accuracy.name})"
  | .descriptorSkipped id cause => s!"Loading from {id} failed: {cause.message}"
  | .recordsKept count => s!"Keeping {count} previously loaded providers"
  | .registryLoaded location report => s!"Provider registry loaded from {location}: {report.text}"
  | .providersReleased count => s!"Released {count} providers"
  | .providersMatched matching all constraints =>
    s!"{matching} of {all} providers match {constraints.text}"
  | .sessionCreated path owner => s!"Created session {path.text} for {owner}"
  | .sessionDestroyed path owner remaining =>
    s!"Destroyed session {path.text} of {owner}, {remaining} remaining"
  | .lastSessionGone released => s!"Last session gone, released {released} providers"
  | .nameLeft name owner => s!"{name} left the bus (was {owner})"
  | .brokerJoined bus peer service => s!"Geoclue master on {bus.text} bus as {peer} ({service})"
  | .brokerNotJoined bus cause => s!"Could not get {bus.text} bus: {cause.message}"
  | .registryEmpty => "Provider registry is empty, reloading"
  | .exportFailed path owner cause =>
    s!"Cannot export session {path.text} for {owner}: {cause.message}"
  | .sessionExported path owner => s!"Session {path.text} created for {owner}"
  | .clientRemoved sessions name => s!"Removed {sessions} sessions of departed client {name}"
  | .withdrawalFailed path cause => s!"Cannot unregister client {path.text}: {cause.message}"
  | .withdrawalWithoutBus path => s!"Cannot unregister client {path.text}: no bus connection"
  | .sessionReleased path => s!"Session {path.text} released"
  | .requirementsStated path constraints => s!"Session {path} requires {constraints.text}"
  | .optionsAnnounced count => s!"Emitting OptionsChanged with {count} options"
  | .workerStarted stats => s!"Master worker started ({stats.text})"
  | .workerStopping => "Master worker received shutdown command"
  | .workerStopped stats => s!"Master worker shut down ({stats.text})"
  | .workerCrashed => "Master worker panicked"

end Event

end LocationBroker.Log
