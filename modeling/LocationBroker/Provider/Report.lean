import LocationBroker.Provider.Error

/-! # Reports of loading

What came of an attempt to load the descriptors of a source.
-/

namespace LocationBroker.Provider

/-- What came of an attempt to load. -/
structure Report where
  /-- The identifiers of the records that are there now. -/
  loaded : List String := []
  /-- What the source listed and is no descriptor. -/
  ignored : List String := []
  /-- The descriptors that could not be loaded. -/
  skipped : List (String × Error) := []
  /-- Why the source could not be listed. -/
  sourceError : Option Error := none
  /-- The number of earlier records that were kept because none was loaded. -/
  retained : Nat := 0

namespace Report

/-- Every descriptor that was listed was loaded. -/
def isClean (r : Report) : Bool :=
  r.skipped.isEmpty && r.sourceError.isNone

def text (r : Report) : String :=
  toString r.loaded.length ++ " loaded, " ++ toString r.skipped.length ++ " skipped, "
    ++ toString r.ignored.length ++ " ignored"
    ++ (if 0 < r.retained then ", " ++ toString r.retained ++ " retained" else "")
    ++ (match r.sourceError with
        | some e => " (" ++ e.message ++ ")"
        | none => "")

end Report

end LocationBroker.Provider
