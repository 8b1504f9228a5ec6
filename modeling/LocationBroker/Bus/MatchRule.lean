import LocationBroker.Bus.Ownership

/-! # Match rules

A peer subscribes to messages by a rule: each part that the rule states must agree with the
message.  The text of a rule lists the stated parts in a fixed order.
-/

namespace LocationBroker.Bus

/-- What a subscriber asks of a message; a part that is left out is not looked at. -/
structure MatchRule where
  type : Option MessageType := none
  sender : Option String := none
  interface : Option String := none
  member : Option String := none
  path : Option ObjectPath := none
  deriving DecidableEq

namespace MatchRule

/-- Every announcement of a change of ownership, whatever name it is about. -/
def ownershipChanges : MatchRule where
  type := some .signal
  interface := some busInterface
  member := some nameOwnerChanged

def agrees {α : Type} [DecidableEq α] (wanted : Option α) (actual : Option α) : Bool :=
  wanted.all fun w => decide (actual = some w)

def covers (rule : MatchRule) (m : Message) : Bool :=
  agrees rule.type (some m.type) && agrees rule.sender m.sender && agrees rule.path (some m.path)
    && agrees rule.interface m.interface && agrees rule.member (some m.member)

def part (key : String) (value : Option String) : List String :=
  match value with
  | some v => [key ++ "='" ++ v ++ "'"]
  | none => []

/-- The stated parts in the order in which they are written. -/
def parts (rule : MatchRule) : List String :=
  part "type" (rule.type.map MessageType.text) ++ part "sender" rule.sender
    ++ part "interface" rule.interface ++ part "member" rule.member
    ++ part "path" (rule.path.map ObjectPath.text)

def text (rule : MatchRule) : String :=
  ",".intercalate rule.parts

end MatchRule

end LocationBroker.Bus
