import LocationBroker.Provider.Vocabulary

/-! # What providers offer and need

The interfaces that a provider implements, the resources it uses, the further capabilities it
advertises, and how accurate it is.
-/

namespace LocationBroker.Provider

/-- A location interface that a provider can implement. -/
inductive Interface where
  | position
  | address
  | velocity
  | geocode
  | reverseGeocode
  deriving DecidableEq

instance : Vocabulary Interface where
  all := [.position, .address, .velocity, .geocode, .reverseGeocode]
  mem_all := by intro i; cases i <;> decide
  name
    | .position => "position"
    | .address => "address"
    | .velocity => "velocity"
    | .geocode => "geocode"
    | .reverseGeocode => "reverse_geocode"
  title
    | .position => "Position"
    | .address => "Address"
    | .velocity => "Velocity"
    | .geocode => "Geocode"
    | .reverseGeocode => "ReverseGeocode"

/-- A resource that a provider uses while it runs. -/
inductive Resource where
  | network
  | cell
  | gps
  deriving DecidableEq

instance : Vocabulary Resource where
  all := [.network, .cell, .gps]
  mem_all := by intro i; cases i <;> decide
  name
    | .network => "network"
    | .cell => "cell"
    | .gps => "gps"
  title
    | .network => "Network"
    | .cell => "Cell"
    | .gps => "Gps"

/-- A behaviour that a provider advertises. -/
inductive Capability where
  /-- The provider announces changes by itself. -/
  | updates
  /-- The provider's results may be kept. -/
  | cacheable
  deriving DecidableEq

instance : Vocabulary Capability where
  all := [.updates, .cacheable]
  mem_all := by intro i; cases i <;> decide
  name
    | .updates => "updates"
    | .cacheable => "cacheable"
  title
    | .updates => "Updates"
    | .cacheable => "Cacheable"

/-! ## Accuracy -/

/-- How accurate a provider's answers are expected to be, coarsest first. -/
inductive Accuracy where
  | none
  | country
  | region
  | locality
  | postalCode
  | street
  | detailed
  deriving DecidableEq, Inhabited

namespace Accuracy

/-- The place of an accuracy in the order. -/
def rank : Accuracy → Nat
  | .none => 0
  | .country => 1
  | .region => 2
  | .locality => 3
  | .postalCode => 4
  | .street => 5
  | .detailed => 6

def atLeast (a minimum : Accuracy) : Bool :=
  minimum.rank ≤ a.rank

def max (a b : Accuracy) : Accuracy :=
  if a.atLeast b then a else b

/-- The name of an accuracy in documents and messages. -/
def name : Accuracy → String
  | .none => "none"
  | .country => "country"
  | .region => "region"
  | .locality => "locality"
  | .postalCode => "postal_code"
  | .street => "street"
  | .detailed => "detailed"

/-- The title of an accuracy in detailed descriptions. -/
def title : Accuracy → String
  | .none => "None"
  | .country => "Country"
  | .region => "Region"
  | .locality => "Locality"
  | .postalCode => "PostalCode"
  | .street => "Street"
  | .detailed => "Detailed"

/-- The accuracy of clients that think in cities. -/
def city : Accuracy := .locality

/-- The names that documents may use; two accuracies have a second one. -/
def known : List (String × Accuracy) := [
  ("none", .none), ("country", .country), ("region", .region), ("city", .locality),
  ("locality", .locality), ("postal_code", .postalCode), ("postalcode", .postalCode),
  ("street", .street), ("detailed", .detailed)]

end Accuracy

end LocationBroker.Provider
