import LocationBroker.Document.Reader
import LocationBroker.Provider.Capability

/-! # Constraints of a client

What a client asks of a provider: interfaces that must all be there, an accuracy to reach, whether
changes have to be announced, and the resources that may be used.
-/

namespace LocationBroker.Provider

open Document (Format Mismatch Reader Stated Field)

/-! ## Reading the vocabulary -/

def Vocabulary.reader (ι : Type) [Vocabulary ι] : Reader ι :=
  Reader.variant (Vocabulary.known ι)

/-- Reads an array of terms; their order and repetitions mean nothing. -/
def Choice.reader (ι : Type) [Vocabulary ι] : Reader (Choice ι) :=
  fun format v => (Reader.list (Vocabulary.reader ι) format v).map Choice.ofList

def Accuracy.reader : Reader Accuracy := Reader.variant Accuracy.known

/-! ## Constraints -/

/-- What a client accepts.  Without more, it accepts every provider. -/
structure Constraints where
  /-- The interfaces that a provider has to implement. -/
  interfaces : Choice Interface := .none
  /-- The accuracy that a provider has to reach. -/
  minAccuracy : Accuracy := .none
  /-- Whether a provider has to announce changes. -/
  requireUpdates : Bool := false
  /-- The resources that a provider may use. -/
  allowedResources : Choice Resource := .all

namespace Constraints

/-- Every provider is accepted. -/
def any : Constraints where

instance : Inhabited Constraints := ⟨any⟩

def withInterface (c : Constraints) (i : Interface) : Constraints :=
  { c with interfaces := c.interfaces.insert i }

def withMinAccuracy (c : Constraints) (a : Accuracy) : Constraints :=
  { c with minAccuracy := a }

def withUpdates (c : Constraints) (required : Bool) : Constraints :=
  { c with requireUpdates := required }

def withAllowedResources (c : Constraints) (resources : Choice Resource) : Constraints :=
  { c with allowedResources := resources }

/-- The two constraints together: what satisfies both of them. -/
def meet (c d : Constraints) : Constraints where
  interfaces := c.interfaces.union d.interfaces
  minAccuracy := c.minAccuracy.max d.minAccuracy
  requireUpdates := c.requireUpdates || d.requireUpdates
  allowedResources := c.allowedResources.inter d.allowedResources

def same (c d : Constraints) : Bool :=
  c.interfaces.same d.interfaces && c.minAccuracy == d.minAccuracy
    && c.requireUpdates == d.requireUpdates && c.allowedResources.same d.allowedResources

def boolText (b : Bool) : String :=
  if b then "true" else "false"

def text (c : Constraints) : String :=
  "interfaces=" ++ c.interfaces.text ++ " min_accuracy=" ++ c.minAccuracy.name ++ " updates="
    ++ boolText c.requireUpdates ++ " allowed=" ++ c.allowedResources.text

/-- The constraints with the names of their fields. -/
def describe (c : Constraints) : String :=
  "Constraints \x7b interfaces: " ++ c.interfaces.text ++ ", min_accuracy: " ++ c.minAccuracy.title
    ++ ", require_updates: " ++ boolText c.requireUpdates ++ ", allowed_resources: "
    ++ c.allowedResources.text ++ " \x7d"

/-! ## Reading -/

def fields (format : Format) : List Field := [
  .of format "interfaces" (Choice.reader Interface),
  .of format "min_accuracy" Accuracy.reader,
  .of format "require_updates" Reader.boolean,
  .of format "allowed_resources" (Choice.reader Resource)]

/-- Reads constraints; every field may be left out. -/
def reader : Reader Constraints := fun format v => do
  let stated ← Stated.ofValue format "struct Constraints" ((fields format).map (·.name)) v
  Stated.check (fields format) stated.entries
  stated.complete
  let interfaces ← stated.optional format "interfaces" (Choice.reader Interface) any.interfaces
  let minAccuracy ← stated.optional format "min_accuracy" Accuracy.reader any.minAccuracy
  let requireUpdates ← stated.optional format "require_updates" Reader.boolean any.requireUpdates
  let allowedResources ← stated.optional format "allowed_resources" (Choice.reader Resource)
    any.allowedResources
  return { interfaces, minAccuracy, requireUpdates, allowedResources }

end Constraints

end LocationBroker.Provider
