import LocationBroker.Bus.ObjectPath
import LocationBroker.Provider.Constraints
import LocationBroker.Provider.Error
import LocationBroker.Text.Blank
import LocationBroker.Toml.Document

/-! # Provider descriptors

A provider is described by a document with a table `provider`, which states its name, the bus name
and the object path under which it is reached, and what it offers and needs.  A descriptor is valid
if a client could use the provider that it describes.
-/

namespace LocationBroker.Provider

open Document (Field Format Reader Stated)

/-- What a descriptor says of its provider. -/
structure Descriptor where
  name : String
  service : String
  path : String
  accuracy : Accuracy := .none
  interfaces : Choice Interface := .none
  provides : Choice Capability := .none
  requires : Choice Resource := .none

namespace Descriptor

/-! ## Reading -/

/-- The fields in the order of their declaration. -/
def fields (format : Format) : List Field := [
  .of format "name" Reader.string,
  .of format "service" Reader.string,
  .of format "path" Reader.string,
  .of format "accuracy" Accuracy.reader,
  .of format "interfaces" (Choice.reader Interface),
  .of format "provides" (Choice.reader Capability),
  .of format "requires" (Choice.reader Resource)]

/-- Reads a descriptor; its name, service and path have to be stated. -/
def reader : Reader Descriptor := fun format v => do
  let stated ← Stated.ofValue format "struct ProviderDescriptor" ((fields format).map (·.name)) v
  Stated.check (fields format) stated.entries
  stated.complete
  let name ← stated.required format "name" Reader.string
  let service ← stated.required format "service" Reader.string
  let path ← stated.required format "path" Reader.string
  let accuracy ← stated.optional format "accuracy" Accuracy.reader .none
  let interfaces ← stated.optional format "interfaces" (Choice.reader Interface) .none
  let provides ← stated.optional format "provides" (Choice.reader Capability) .none
  let requires ← stated.optional format "requires" (Choice.reader Resource) .none
  return { name, service, path, accuracy, interfaces, provides, requires }

/-- Reads a document whose field `provider` is a descriptor. -/
def documentReader : Reader Descriptor := fun format v => do
  let stated ← Stated.ofValue format "struct DescriptorFile" ["provider"] v
  Stated.check [.of format "provider" reader] stated.entries
  stated.complete
  stated.required format "provider" reader

/-! ## Validity -/

/-- What makes the described provider unusable, if anything does. -/
def defect? (d : Descriptor) : Option Defect :=
  if Text.isAllBlank d.name then some .emptyName
  else if Text.isAllBlank d.service || !d.service.toList.contains '.' then some .notABusName
  else if !Bus.ObjectPath.isValid d.path then some .notAPath
  else if d.interfaces.isEmpty then some .noInterfaces
  else none

/-- Reads and checks the descriptor that a document describes, for the given identifier. -/
def ofDocument (id : String) (v : Document.Value) : Except Error Descriptor :=
  match documentReader .toml v with
  | .error m => .error (.unparsable id (.mismatch m))
  | .ok d =>
    match d.defect? with
    | some defect => .error (.invalid id defect)
    | none => .ok d

/-- Reads and checks the text of the descriptor with the given identifier. -/
def ofToml (id text : String) (parse : Document.Parser := Toml.parse?) :
    Except Error Descriptor :=
  match parse text with
  | some entries => ofDocument id (.table entries)
  | none => .error (.unparsable id .illFormed)

end Descriptor

end LocationBroker.Provider
