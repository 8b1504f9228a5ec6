import LocationBroker.Broker.Service

/-! # The worker

A worker owns a broker and serves the commands that are sent to it one by one, in the order in which
they were sent.  `Service.apply` says what a command does to the broker by itself.

A hook may end the worker in the middle of a command.  The session of the hook is destroyed and its
object withdrawn by then; nothing that the command would have done afterwards is done.
-/

namespace LocationBroker.Broker

open Log (Effect Effects)

/-- What can be asked of a worker. -/
inductive Command where
  /-- Show a message to the broker's filter. -/
  | deliver (m : Bus.Message)
  | call (call : Bus.MethodCall)
  | create (call : Bus.MethodCall)
  | release (path : String)
  | setRequirements (path : String) (c : Provider.Constraints)
  | providersFor (path : String)
  | announceOptions (options : Ledger String String)
  | stats
  /-- End the worker. -/
  | shutdown

/-- What a worker answers; a message and the end of the worker are not answered. -/
inductive Reply where
  | none
  | call (reply : Option Bus.MethodReply)
  | create (path : Except Error Bus.ObjectPath)
  | done (result : Except Error Unit)
  | providers (records : Except Error (List Provider.Record))
  | stats (stats : Stats)

/-- The outcome with another result. -/
def Outcome.map {α β : Type} (f : α → β) (o : Outcome α) : Outcome β :=
  { result := f o.result, service := o.service, bus := o.bus, effects := o.effects }

/-- What a command does to the broker by itself. -/
def Service.apply (s : Service) (bus : Bus) (source : Provider.Source) : Command → Outcome Reply
  | .deliver m => (s.filter bus m).map fun _ => .none
  | .call call => (s.handleCall bus source call).map .call
  | .create call => (s.create bus source call).map .create
  | .release path => (s.release bus path).map .done
  | .setRequirements path c => (s.setRequirements bus path c).map .done
  | .providersFor path => (s.providersFor bus path).map .providers
  | .announceOptions options => (s.announceOptions bus options).map .done
  | .stats => { result := .stats s.stats, service := s, bus, effects := [] }
  | .shutdown => { result := .none, service := s, bus, effects := [] }

/-! ## Hooks that end the worker -/

/-- Whether the effect is the run of a hook that ends the worker. -/
def isAbort : Effect → Bool
  | .hookRun hook _ => hook.aborts
  | _ => false

/-- The effects up to the first hook that ends the worker, and that run itself. -/
def untilAbort : Effects → Effects
  | [] => []
  | e :: rest => if isAbort e then [e] else e :: untilAbort rest

/-- The paths up to the first one whose session has a hook that ends the worker, and that path
itself. -/
def Service.pathsUntilAbort (s : Service) : List Bus.ObjectPath → List Bus.ObjectPath
  | [] => []
  | path :: rest =>
    if ((s.sessions.get? path).bind (·.hook)).any (·.aborts) then [path]
    else path :: s.pathsUntilAbort rest

/-- The bus after a command that a hook has broken off. -/
def Service.busAtAbort (s : Service) (bus : Bus) : Command → Bus
  | .deliver m =>
    match Presence.departed? m with
    | some name => (s.teardownAll bus (s.pathsUntilAbort (s.sessions.pathsOf name))).bus
    | none => bus
  | .release path => (s.release bus path).bus
  | _ => bus

/-! ## The worker -/

/-- A command with the address that its answer goes to. -/
structure Letter (α : Type) where
  address : α
  command : Command

/-- Whether a worker is still at work. -/
inductive Worker.Phase where
  | running (service : Service)
  | stopped
  | crashed

/-- A worker with the commands that wait for it, first come first. -/
structure Worker (α : Type) where
  phase : Worker.Phase
  queue : List (Letter α) := []

/-- What a worker did with the first of its commands. -/
structure Worker.Turn (α : Type) where
  worker : Worker α
  bus : Bus
  effects : Effects
  /-- The answer and where it goes, unless the worker ended before it could give one. -/
  reply : Option (α × Reply)

namespace Worker

variable {α : Type}

/-- Moves a broker to a worker of its own. -/
def spawn (s : Service) : Worker α × Effects :=
  ({ phase := .running s }, [.event (.workerStarted s.stats)])

/-- Sends a command to the worker, as long as it is at work. -/
def send (w : Worker α) (letter : Letter α) : Except Error (Worker α) :=
  match w.phase with
  | .running _ => .ok { w with queue := w.queue ++ [letter] }
  | .stopped | .crashed => .error .workerDisconnected

def serve (s : Service) (bus : Bus) (source : Provider.Source) (letter : Letter α)
    (waiting : List (Letter α)) : Turn α :=
  match letter.command with
  | .shutdown => {
      worker := { phase := .stopped }
      bus
      effects := [.event .workerStopping, .event (.workerStopped s.stats)]
      reply := none }
  | c =>
    let o := s.apply bus source c
    if o.effects.any isAbort then {
      worker := { phase := .crashed }
      bus := s.busAtAbort bus c
      effects := untilAbort o.effects
      reply := none }
    else {
      worker := { phase := .running o.service, queue := waiting }
      bus := o.bus
      effects := o.effects
      reply := some (letter.address, o.result) }

/-- Lets the worker serve the first of its commands, if it is at work and has any. -/
def turn (w : Worker α) (bus : Bus) (source : Provider.Source) : Option (Turn α) :=
  match w.phase, w.queue with
  | .running s, letter :: waiting => some (serve s bus source letter waiting)
  | _, _ => none

end Worker

end LocationBroker.Broker
