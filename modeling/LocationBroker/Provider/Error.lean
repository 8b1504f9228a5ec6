import LocationBroker.Bus.Error
import LocationBroker.Document.Fault
import LocationBroker.Files.Fault

/-! # Why a provider cannot be loaded

The causes for which descriptors cannot be listed, read or used, and their wording.
-/

namespace LocationBroker.Provider

/-- Why a descriptor describes no usable provider. -/
inductive Defect where
  | emptyName
  | notABusName
  | notAPath
  | noInterfaces
  /-- The bus refuses what the descriptor says. -/
  | refused (cause : Bus.Error)
  /-- A defect that is known by its wording only. -/
  | other (wording : String)
  deriving DecidableEq

/-- The wording of a defect. -/
def Defect.message : Defect → String
  | .emptyName => "empty provider name"
  | .notABusName => "service must be a well-known bus name"
  | .notAPath => "path is not a valid object path"
  | .noInterfaces => "provider declares no interfaces"
  | .refused cause => cause.message
  | .other wording => wording

/-- The cause for which descriptors cannot be listed, read or used. -/
inductive Error where
  /-- The directory of the descriptors could not be listed. -/
  | unlistable (dir : String) (cause : Files.Fault)
  /-- A descriptor could not be read. -/
  | unreadable (id : String) (cause : Files.Fault)
  /-- The text of a descriptor is not understood. -/
  | unparsable (id : String) (cause : Document.Fault)
  /-- A descriptor describes no usable provider. -/
  | invalid (id : String) (defect : Defect)
  /-- There is no descriptor of that identifier. -/
  | unknown (id : String)

/-- The wording of a cause.  What is wrong with a text that is not understood is told apart from
it. -/
def Error.message : Error → String
  | .unlistable dir cause => "Error opening " ++ dir ++ ": " ++ cause.message
  | .unreadable id cause => "Failed to read descriptor " ++ id ++ ": " ++ cause.message
  | .unparsable id _ => "Failed to parse descriptor " ++ id ++ ": "
  | .invalid id defect => "Invalid descriptor " ++ id ++ ": " ++ defect.message
  | .unknown id => "Unknown descriptor " ++ id

end LocationBroker.Provider
