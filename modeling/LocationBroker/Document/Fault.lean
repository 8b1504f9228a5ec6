import LocationBroker.Document.Mismatch

/-! # Faults of documents

Why a text could not be read: it is no document, or the document does not describe what is asked
for.
-/

namespace LocationBroker.Document

/-- The cause for which a text could not be read. -/
inductive Fault where
  /-- The text is no document of the format. -/
  | illFormed
  /-- The document does not describe what is asked for. -/
  | mismatch (m : Mismatch)

/-- What the author of the document is told. -/
def Fault.detail : Fault → Option String
  | .illFormed => none
  | .mismatch m => m.detail

end LocationBroker.Document
