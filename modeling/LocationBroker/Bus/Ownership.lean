import LocationBroker.Bus.Message

/-! # Changes of ownership

The bus announces with a signal of its own that a name went from one owner to another.  An empty
text stands for no owner.  A signal of two texts leaves the new owner out and is read as if it was
empty.
-/

namespace LocationBroker.Bus

def busName : String := "org.freedesktop.DBus"

def busInterface : String := "org.freedesktop.DBus"

def busPath : ObjectPath := ⟨"/org/freedesktop/DBus", by decide⟩

/-- The signal that announces a change of ownership. -/
def nameOwnerChanged : String := "NameOwnerChanged"

/-- A name went from one owner to another; an empty text stands for no owner. -/
structure OwnershipChange where
  name : String
  oldOwner : String
  newOwner : String
  deriving DecidableEq

/-- The signal announces a change of ownership, by its interface and member. -/
def Signal.announcesOwnership (s : Signal) : Bool :=
  s.interface == busInterface && s.member == nameOwnerChanged

namespace OwnershipChange

/-- The change that a list of arguments describes: two or three texts and nothing else. -/
def ofArgs? : List Argument → Option OwnershipChange
  | [.str name, .str old] => some ⟨name, old, ""⟩
  | [.str name, .str old, .str new] => some ⟨name, old, new⟩
  | _ => none

def ofMessage? : Message → Option OwnershipChange
  | .signal s => if s.announcesOwnership then ofArgs? s.args else none
  | .call _ => none

/-- The signal with which the bus announces a change. -/
def toSignal (c : OwnershipChange) : Signal where
  sender := some busName
  path := busPath
  interface := busInterface
  member := nameOwnerChanged
  args := [.str c.name, .str c.oldOwner, .str c.newOwner]

def toMessage (c : OwnershipChange) : Message :=
  .signal c.toSignal

/-- The name had an owner and has none now. -/
def isDeparture (c : OwnershipChange) : Bool :=
  !c.oldOwner.isEmpty && c.newOwner.isEmpty

/-- The name had no owner and has one now. -/
def isAcquisition (c : OwnershipChange) : Bool :=
  c.oldOwner.isEmpty && !c.newOwner.isEmpty

/-- The name went from one peer to another. -/
def isHandover (c : OwnershipChange) : Bool :=
  !c.oldOwner.isEmpty && !c.newOwner.isEmpty

end OwnershipChange

end LocationBroker.Bus
