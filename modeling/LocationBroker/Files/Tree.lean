import LocationBroker.Files.Fault
import LocationBroker.Text.Utf8

/-! # A tree of files

The files of a machine, held in memory, and a current directory.  Names are sequences of octets and
need not be texts.  A path is a text whose parts are separated by slashes; it is followed from the
root if it begins with a slash, and else from the current directory.  The root is its own parent,
and the current directory is always there, with all that are above it.
-/

namespace LocationBroker

abbrev Files.Name := List UInt8

/-- What stands at a place in the tree. -/
inductive Files.Node where
  | directory
  | file (octets : List UInt8)

/-- The places below the root where something was put, each place once, and the place at which paths
begin that have no slash in front. -/
structure Files where
  places : List (List Files.Name × Files.Node) := []
  current : List Files.Name := [Text.Utf8.encode "work"]

namespace Files

/-- The current directory and those above it, without the root. -/
def standing (t : Files) : List (List Name × Node) :=
  (List.range t.current.length).map fun n => (t.current.take (n + 1), .directory)

/-- All places below the root with what stands there. -/
def occupied (t : Files) : List (List Name × Node) :=
  t.standing ++ t.places

/-- What stands at a place; at the root stands a directory. -/
def nodeAt (t : Files) (place : List Name) : Option Node :=
  if place.isEmpty then some .directory
  else (t.occupied.find? fun p => p.1 = place).map (·.2)

/-! ## Paths -/

def partsFrom (current : Name) : List UInt8 → List Name
  | [] => [current]
  | b :: rest => if b = 0x2f then current :: partsFrom [] rest else partsFrom (current ++ [b]) rest

/-- The part that stays where it is. -/
def here : Name := [0x2e]

/-- The part that climbs up. -/
def up : Name := [0x2e, 0x2e]

/-- Whether a path begins at the root, and the parts that lead somewhere else.  Two paths with the
same components are spellings of one path. -/
def components (path : String) : Bool × List Name :=
  let octets := Text.Utf8.encode path
  let parts := (partsFrom [] octets).filter (· ≠ [])
  match parts with
  | [] => (octets.head? = some 0x2f, [])
  | first :: rest =>
    if octets.head? = some 0x2f then (true, parts.filter (· ≠ here))
    else (false, first :: rest.filter (· ≠ here))

/-- The greatest number of octets of a name. -/
def nameLimit : Nat := 255

/-- The greatest number of octets of a path. -/
def pathLimit : Nat := 4095

/-- Finds a name in the directory at a place. -/
def enter (t : Files) (place : List Name) (name : Name) : Except Fault (List Name) :=
  if nameLimit < name.length then .error .nameTooLong
  else if (t.nodeAt (place ++ [name])).isSome then .ok (place ++ [name])
  else .error .notFound

/-- Follows the parts of a path from a place on. -/
def follow (t : Files) (place : List Name) : List Name → Except Fault (List Name)
  | [] => .ok place
  | part :: rest =>
    match t.nodeAt place with
    | some .directory =>
      if part = [] ∨ part = here then follow t place rest
      else if part = up then follow t place.dropLast rest
      else
        match t.enter place part with
        | .ok next => follow t next rest
        | .error e => .error e
    | some (.file _) => .error .notADirectory
    | none => .error .notFound

/-- The place that a path leads to. -/
def resolve (t : Files) (path : String) : Except Fault (List Name) :=
  let octets := Text.Utf8.encode path
  if octets.contains 0 then .error .nulInName
  else if octets.isEmpty then .error .notFound
  else if pathLimit < octets.length then .error .nameTooLong
  else t.follow (if octets.head? = some 0x2f then [] else t.current) (partsFrom [] octets)

def nodeAtPath (t : Files) (path : String) : Except Fault Node := do
  match t.nodeAt (← t.resolve path) with
  | some node => .ok node
  | none => .error .notFound

/-! ## Reading -/

def readOctets (t : Files) (path : String) : Except Fault (List UInt8) := do
  match ← t.nodeAtPath path with
  | .file octets => .ok octets
  | .directory => .error .isADirectory

def readText (t : Files) (path : String) : Except Fault String := do
  match Text.Utf8.decode? (← t.readOctets path) with
  | some text => .ok text
  | none => .error .notText

def namesAt (t : Files) (place : List Name) : List Name :=
  t.occupied.filterMap fun p => if p.1.dropLast = place then p.1.getLast? else none

/-- The names in the directory that a path leads to. -/
def namesIn (t : Files) (path : String) : Except Fault (List Name) := do
  let place ← t.resolve path
  match t.nodeAt place with
  | some .directory => .ok (t.namesAt place)
  | some (.file _) => .error .notADirectory
  | none => .error .notFound

/-! ## Changes

What is put somewhere is put below the current directory.
-/

/-- The place that a path names below the current directory, whether or not something stands there.
-/
def placeOf (path : String) : List Name :=
  (partsFrom [] (Text.Utf8.encode path)).foldl (fun place part =>
    if part = [] ∨ part = here then place
    else if part = up then place.dropLast
    else place ++ [part]) []

/-- Puts a directory at a place where nothing stands. -/
def addDirectory (t : Files) (place : List Name) : Files :=
  if (t.nodeAt place).isSome then t else { t with places := t.places ++ [(place, .directory)] }

/-- Makes a directory below the current one, and those between the two. -/
def makeDirectory (t : Files) (below : List Name) : Files :=
  (List.range (below.length + 1)).foldl
    (fun t n => t.addDirectory (t.current ++ below.take n)) t

/-- Writes a file below the current directory, and makes the directories between the two. -/
def write (t : Files) (below : List Name) (octets : List UInt8) : Files :=
  let place := t.current ++ below
  let t := t.makeDirectory below.dropLast
  { t with places := t.places.filter (fun p => p.1 ≠ place) ++ [(place, .file octets)] }

/-- Takes away what a path leads to, with all that is below it, and says whether there was
anything.  What holds the current directory is left there. -/
def remove (t : Files) (path : String) : Bool × Files :=
  match t.resolve path with
  | .ok place =>
    if place.isPrefixOf t.current ∧ place ≠ t.current then (false, t)
    else (true, { t with places := t.places.filter fun p => !place.isPrefixOf p.1 })
  | .error _ => (false, t)

end Files

end LocationBroker
