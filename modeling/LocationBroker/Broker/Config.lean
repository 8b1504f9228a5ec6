import LocationBroker.Bus.Kind
import LocationBroker.Bus.ObjectPath
import LocationBroker.Document.Reader
import LocationBroker.Provider.Source
import LocationBroker.Toml.Document

/-! # Configuration

Which bus the broker joins, under which name and path, where its sessions are exported, where its
descriptors are, and when they are loaded.  A configuration is read from a document in which every
field may be left out, and is checked before it is used.
-/

namespace LocationBroker.Broker

open Document (Field Format Reader Stated)

/-- When the descriptors are loaded. -/
inductive ReloadPolicy where
  /-- At the start, and whenever a session is created while there are no providers. -/
  | onDemand
  /-- At the start only. -/
  | startupOnly
  deriving DecidableEq, Inhabited

namespace ReloadPolicy

/-- The name of a policy in documents. -/
def name : ReloadPolicy → String
  | .onDemand => "on_demand"
  | .startupOnly => "startup_only"

def known : List (String × ReloadPolicy) :=
  [.onDemand, .startupOnly].map fun p => (p.name, p)

def reader : Reader ReloadPolicy := Reader.variant known

end ReloadPolicy

def busKindReader : Reader Bus.Kind :=
  Reader.variant (Bus.Kind.all.map fun k => (k.text, k))

/-- The configuration of a broker. -/
structure Config where
  bus : Bus.Kind := .session
  /-- The name that the broker claims on the bus. -/
  serviceName : String := "org.freedesktop.Geoclue.Master"
  /-- The path of the broker's own object. -/
  masterPath : String := "/org/freedesktop/Geoclue/Master"
  /-- What the paths of sessions begin with; a serial follows. -/
  sessionPathPrefix : String := "/org/freedesktop/Geoclue/Master/client"
  /-- The directory of the descriptors. -/
  providersDir : String := "/usr/share/geoclue-providers"
  /-- How the names of descriptors end, with a dot in front. -/
  providerExtension : String := Provider.Directory.defaultExtension
  reloadPolicy : ReloadPolicy := .onDemand
  deriving DecidableEq

/-- Why a configuration cannot be used. -/
inductive ConfigFault where
  | serviceName (value : String)
  | masterPath (value : String)
  | sessionPathPrefix (value : String)
  | providerExtension (value : String)
  /-- The file could not be read. -/
  | unreadable (path : String) (cause : Files.Fault)
  /-- The document is not understood. -/
  | unparsable (cause : Document.Fault)
  /-- A fault that is known by its wording only. -/
  | other (wording : String)

/-- The wording of a fault.  What is wrong with a document that is not understood is told apart from
it. -/
def ConfigFault.message : ConfigFault → String
  | .serviceName v => "Service name " ++ Text.quote v ++ " is not a well-known bus name"
  | .masterPath v => "Master path " ++ Text.quote v ++ " is not a valid object path"
  | .sessionPathPrefix v => "Session path prefix " ++ Text.quote v ++ " is not a valid object path"
  | .providerExtension v =>
    "Provider extension " ++ Text.quote v ++ " must be a single dot followed by a suffix"
  | .unreadable path cause => "cannot read " ++ path ++ ": " ++ cause.message
  | .unparsable _ => ""
  | .other wording => wording

namespace Config

/-- The configuration that is used if nothing else is said. -/
def standard : Config where

/-- The configuration of a broker for the whole system. -/
def system : Config := { standard with bus := .system }

/-- The configuration of a broker that loads its descriptors exactly once. -/
def loadOnce : Config := { standard with reloadPolicy := .startupOnly }

/-- The directory of the descriptors, as a source of them. -/
def directory (c : Config) : Provider.Directory := ⟨c.providersDir, c.providerExtension⟩

/-- Whether the configuration is the standard one, however the path of its directory is spelled. -/
def isStandard (c : Config) : Bool :=
  decide ({ c with providersDir := standard.providersDir } = standard)
    && Files.components c.providersDir == Files.components standard.providersDir

/-! ## Checking -/

/-- A name for the bus has a dot, and not in front. -/
def isBusName (name : String) : Bool :=
  name.toList.contains '.' && name.toList.head? != some '.'

/-- An extension is a dot with other characters after it. -/
def isExtension (extension : String) : Bool :=
  match extension.toList with
  | '.' :: c :: rest => !(c :: rest).contains '.'
  | _ => false

/-- What makes the configuration unusable, if anything does. -/
def fault? (c : Config) : Option ConfigFault :=
  if !isBusName c.serviceName then some (.serviceName c.serviceName)
  else if !Bus.ObjectPath.isValid c.masterPath then some (.masterPath c.masterPath)
  else if !Bus.ObjectPath.isValid c.sessionPathPrefix then
    some (.sessionPathPrefix c.sessionPathPrefix)
  else if !isExtension c.providerExtension then some (.providerExtension c.providerExtension)
  else none

/-! ## Reading -/

def fields (format : Format) : List Field := [
  .of format "bus" busKindReader,
  .of format "service_name" Reader.string,
  .of format "master_path" Reader.string,
  .of format "session_path_prefix" Reader.string,
  .of format "providers_dir" (Reader.text "path string"),
  .of format "provider_extension" Reader.string,
  .of format "reload_policy" ReloadPolicy.reader]

/-- Reads a configuration; every field may be left out. -/
def reader : Reader Config := fun format v => do
  let stated ← Stated.ofValue format "struct MasterConfig" ((fields format).map (·.name)) v
  Stated.check (fields format) stated.entries
  stated.complete
  let bus ← stated.optional format "bus" busKindReader standard.bus
  let serviceName ← stated.optional format "service_name" Reader.string standard.serviceName
  let masterPath ← stated.optional format "master_path" Reader.string standard.masterPath
  let sessionPathPrefix ← stated.optional format "session_path_prefix" Reader.string
    standard.sessionPathPrefix
  let providersDir ← stated.optional format "providers_dir" (Reader.text "path string")
    standard.providersDir
  let providerExtension ← stated.optional format "provider_extension" Reader.string
    standard.providerExtension
  let reloadPolicy ← stated.optional format "reload_policy" ReloadPolicy.reader
    standard.reloadPolicy
  return { bus, serviceName, masterPath, sessionPathPrefix, providersDir, providerExtension,
           reloadPolicy }

/-- Reads and checks the configuration that a document describes. -/
def ofDocument (v : Document.Value) : Except ConfigFault Config :=
  match reader .toml v with
  | .error m => .error (.unparsable (.mismatch m))
  | .ok c =>
    match c.fault? with
    | some fault => .error fault
    | none => .ok c

def ofToml (text : String) (parse : Document.Parser := Toml.parse?) : Except ConfigFault Config :=
  match parse text with
  | some entries => ofDocument (.table entries)
  | none => .error (.unparsable .illFormed)

def ofFile (files : Files) (path : String) (parse : Document.Parser := Toml.parse?) :
    Except ConfigFault Config :=
  match files.readText path with
  | .error cause => .error (.unreadable path cause)
  | .ok text => ofToml text parse

end Config

end LocationBroker.Broker
