import LocationBroker.Log.Effect
import LocationBroker.Provider.Record

/-! # The registry of providers

The registry holds the records of the last load that produced any.  A load that produces none leaves
the records as they are, so only `release` empties a registry.
-/

namespace LocationBroker.Provider

open Log (Effect Effects)

/-- Reads the descriptor of an identifier from a source and makes a record of it. -/
def Record.load (s : Source) (id : String) : Except Error Record := do
  let text ← s.read id
  let d ← Descriptor.ofToml id text s.parse
  ofDescriptor id d

/-- The providers that can be selected. -/
structure Registry where
  /-- The records in the order in which they were listed. -/
  records : List Record := []
  /-- How often the registry was emptied. -/
  releases : Nat := 0

namespace Registry

/-! ## Loading -/

/-- What came of each identifier that a source lists. -/
def attempts (s : Source) (ids : List String) : List (String × Except Error Record) :=
  ids.map fun id => (id, Record.load s id)

def loadedOf (attempts : List (String × Except Error Record)) : List Record :=
  attempts.filterMap fun a => a.2.toOption

def skippedOf (attempts : List (String × Except Error Record)) : List (String × Error) :=
  attempts.filterMap fun a =>
    match a.2 with
    | .ok _ => none
    | .error e => some (a.1, e)

def attemptEffects (a : String × Except Error Record) : Effects :=
  [.read a.1, .event (match a.2 with
    | .ok r => .providerLoaded r.name r.service r.accuracy
    | .error e => .descriptorSkipped a.1 e)]

/-- What is told when the records stay as they are. -/
def keepEffects (r : Registry) : Effects :=
  if r.records.isEmpty then [] else [.event (.recordsKept r.records.length)]

/-- A report on what is missing for the records to stay as they are. -/
def keptReport (r : Registry) (report : Report) : Report :=
  { report with loaded := r.records.map (·.id), retained := r.records.length }

/-- Replaces the records by those of the source's descriptors, if there is any. -/
def load (r : Registry) (s : Source) : Registry × Report × Effects :=
  let listed : Effects := .listed :: s.notes.map fun n => .event (.scanned n)
  match s.listing with
  | .error e =>
    (r, r.keptReport { sourceError := some e },
      listed ++ [.event (.listingFailed e)] ++ r.keepEffects)
  | .ok listing =>
    let tried := attempts s listing.accepted
    let told := listed ++ tried.flatMap attemptEffects
    let report : Report := { ignored := listing.ignored, skipped := skippedOf tried }
    match loadedOf tried with
    | [] =>
      let report := r.keptReport report
      (r, report, told ++ r.keepEffects ++ [.event (.registryLoaded s.location report)])
    | first :: rest =>
      let report := { report with loaded := (first :: rest).map (·.id) }
      ({ r with records := first :: rest }, report,
        told ++ [.event (.registryLoaded s.location report)])

/-- Lets every record go, and says how many there were. -/
def release (r : Registry) : Registry × Nat × Effects :=
  if r.records.isEmpty then (r, 0, [])
  else
    ({ records := [], releases := r.releases + 1 }, r.records.length,
      [.event (.providersReleased r.records.length)])

/-! ## Selection -/

/-- The records that satisfy the constraints, in order. -/
def filter (r : Registry) (c : Constraints) : List Record :=
  r.records.filter fun record => record.satisfies c

def filterEffects (r : Registry) (c : Constraints) : Effects :=
  [.event (.providersMatched (r.filter c).length r.records.length c)]

def get? (r : Registry) (id : String) : Option Record :=
  r.records.find? fun record => record.id = id

end Registry

end LocationBroker.Provider
