import LocationBroker.Provider.Registry

/-! # The shared source

Descriptors held in memory that several registries load from.  The source can be told to answer a
listing with something else than what it holds, or to fail, and it counts the visits to it.
-/

namespace LocationBroker.Host

open Provider (Listing Memory Source)
open Log (Effects)

/-- Descriptors in memory, with what they answer to being listed. -/
structure Shared where
  memory : Memory := .empty
  /-- What a listing answers instead of what the memory holds. -/
  override : Option Listing := none
  /-- The reason for which a listing fails; it goes before everything else. -/
  failure : Option String := none
  /-- How often the source was listed. -/
  lists : Nat := 0
  /-- How often a descriptor was read. -/
  reads : Nat := 0

namespace Shared

/-- The source as it answers now. -/
def source (s : Shared) : Source where
  location := s.memory.source.location
  listing :=
    match s.failure with
    | some reason => .error (.invalid "source" (.other reason))
    | none => .ok (s.override.getD s.memory.listing)
  read := s.memory.read

def visited (s : Shared) (effects : Effects) : Shared :=
  { s with lists := s.lists + effects.lists, reads := s.reads + effects.reads.length }

end Shared

end LocationBroker.Host
