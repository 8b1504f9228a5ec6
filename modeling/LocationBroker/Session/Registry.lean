import LocationBroker.Provider.Registry

/-! # The registry of sessions

A registry creates sessions under paths that begin alike and end in a serial, which only ever grows,
so no path is used twice.  When the last session is destroyed, the providers are released.
-/

namespace LocationBroker.Session

open Log (Effect Effects)

/-- The live sessions. -/
structure Registry where
  /-- What the paths of the sessions begin with. -/
  base : Bus.ObjectPath
  /-- The serial of the next session. -/
  nextSerial : Nat := 0
  /-- The live sessions in the order of their creation. -/
  sessions : List Session := []

namespace Registry

/-! ## Looking up -/

/-- The session of a path. -/
def get? (r : Registry) (path : Bus.ObjectPath) : Option Session :=
  r.sessions.find? fun s => s.path = path

/-- The oldest session of an owner.  An unknown owner has none. -/
def find? (r : Registry) (owner : String) : Option Session :=
  if owner.isEmpty then none else r.sessions.find? fun s => s.owner = owner

/-- The paths of an owner's sessions, oldest first.  An unknown owner has none. -/
def pathsOf (r : Registry) (owner : String) : List Bus.ObjectPath :=
  if owner.isEmpty then [] else (r.sessions.filter fun s => s.owner = owner).map (·.path)

/-- The path that a text names, if there is a session at it. -/
def pathAt? (r : Registry) (text : String) : Option Bus.ObjectPath :=
  (Bus.ObjectPath.ofString? text).filter fun path => (r.get? path).isSome

/-! ## Changes -/

def create (r : Registry) (owner : String) : Session × Registry × Effects :=
  let session : Session := { owner, path := r.base.withSerial r.nextSerial }
  (session, { r with nextSerial := r.nextSerial + 1, sessions := r.sessions ++ [session] },
    [.event (.sessionCreated session.path owner)])

def modify (r : Registry) (path : Bus.ObjectPath) (change : Session → Session) : Registry :=
  { r with sessions := r.sessions.map fun s => if s.path = path then change s else s }

/-- Gives the session of a path other requirements. -/
def setRequirements (r : Registry) (path : Bus.ObjectPath) (c : Provider.Constraints) : Registry :=
  r.modify path fun s => { s with requirements := c }

/-- Attaches a hook to the session of a path, in the stead of an earlier one. -/
def attachHook (r : Registry) (path : Bus.ObjectPath) (hook : Hook) : Registry :=
  r.modify path fun s => { s with hook := some hook }

def remove (r : Registry) (path : Bus.ObjectPath) : Registry :=
  { r with sessions := r.sessions.filter fun s => s.path ≠ path }

/-- Runs the hook of a session that has left the registry. -/
def runHook (s : Session) : Effects :=
  match s.hook with
  | some hook => [.hookRun hook { s with hook := none }]
  | none => []

/-- Destroys the session of a path: takes it out, runs its hook, and releases the providers if it
was the last one.  A path without a session changes nothing. -/
def destroy (r : Registry) (path : Bus.ObjectPath) (providers : Provider.Registry) :
    Option Session × Registry × Provider.Registry × Effects :=
  match r.get? path with
  | none => (none, r, providers, [])
  | some session =>
    let r := r.remove path
    let told : Effects := runHook session
      ++ [.event (.sessionDestroyed session.path session.owner r.sessions.length)]
    let gone := { session with hook := none }
    if r.sessions.isEmpty then
      let (providers, released, releasing) := providers.release
      (some gone, r, providers, told ++ releasing ++ [.event (.lastSessionGone released)])
    else (some gone, r, providers, told)

end Registry

end LocationBroker.Session
