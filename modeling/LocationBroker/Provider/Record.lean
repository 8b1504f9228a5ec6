import LocationBroker.Provider.Descriptor

/-! # Provider records

A record is a provider that can be selected: what its descriptor says, under the identifier of the
descriptor, with an object path instead of a text.
-/

namespace LocationBroker.Provider

/-- A provider that can be selected. -/
structure Record where
  id : String
  name : String
  service : String
  path : Bus.ObjectPath
  accuracy : Accuracy
  interfaces : Choice Interface
  provides : Choice Capability
  requires : Choice Resource

namespace Record

/-- The record of a descriptor, if the descriptor's path is an object path. -/
def ofDescriptor (id : String) (d : Descriptor) : Except Error Record :=
  match Bus.ObjectPath.parse d.path with
  | .error cause => .error (.invalid id (.refused cause))
  | .ok path => .ok {
      id, path
      name := d.name
      service := d.service
      accuracy := d.accuracy
      interfaces := d.interfaces
      provides := d.provides
      requires := d.requires }

def canUpdate (r : Record) : Bool := r.provides.has .updates

def isCacheable (r : Record) : Bool := r.provides.has .cacheable

/-- The provider satisfies the constraints: it implements every wanted interface, reaches the
accuracy, announces changes if it has to, and uses only resources that are allowed. -/
def satisfies (r : Record) (c : Constraints) : Bool :=
  c.interfaces.subset r.interfaces && r.accuracy.atLeast c.minAccuracy
    && (!c.requireUpdates || r.canUpdate) && r.requires.subset c.allowedResources

end Record

end LocationBroker.Provider
