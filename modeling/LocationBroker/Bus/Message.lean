import LocationBroker.Bus.ObjectPath

/-! # Messages on the bus

Signals and method calls, their arguments, and the replies to calls.
-/

namespace LocationBroker.Bus

/-- One argument of a message. -/
inductive Argument where
  | str (value : String)
  | u32 (value : UInt32)
  | i32 (value : Int32)
  | bool (value : Bool)
  | path (value : ObjectPath)
  /-- A dictionary from texts to texts. -/
  | dict (value : Ledger String String)

/-- The text of a textual argument. -/
def Argument.str? : Argument → Option String
  | .str value => some value
  | _ => none

/-- A signal, sent to whoever subscribed to it. -/
structure Signal where
  sender : Option String := none
  path : ObjectPath
  interface : String
  member : String
  args : List Argument := []

/-- A call of a method on an exported object.  The bus fills in the caller's unique name. -/
structure MethodCall where
  sender : Option String := none
  path : ObjectPath
  interface : Option String
  member : String
  args : List Argument := []

/-- The answer to a method call. -/
inductive MethodReply where
  | returned (args : List Argument)
  | failed (name message : String)

/-- What two messages can be told apart by first. -/
inductive MessageType where
  | signal
  | methodCall
  deriving DecidableEq

/-- The name of the type in match rules. -/
def MessageType.text : MessageType → String
  | .signal => "signal"
  | .methodCall => "method_call"

/-- A message on the bus. -/
inductive Message where
  | signal (signal : Signal)
  | call (call : MethodCall)

namespace Message

/-- Whether the message is a signal or a call. -/
def type : Message → MessageType
  | .signal _ => .signal
  | .call _ => .methodCall

def sender : Message → Option String
  | .signal s => s.sender
  | .call c => c.sender

/-- The object that the message comes from or goes to. -/
def path : Message → ObjectPath
  | .signal s => s.path
  | .call c => c.path

/-- The interface of the message; a call may leave it open. -/
def interface : Message → Option String
  | .signal s => some s.interface
  | .call c => c.interface

def member : Message → String
  | .signal s => s.member
  | .call c => c.member

def args : Message → List Argument
  | .signal s => s.args
  | .call c => c.args

end Message

/-- What a filter says about a message: whether other filters still have to see it. -/
inductive FilterVerdict where
  | handled
  | notYetHandled
  deriving DecidableEq

end LocationBroker.Bus
