import LocationBroker.Document.Value

/-! # Why a document does not fit

A document that is well formed may still not describe what is asked for.  Some of the causes are
spelled out to the author of the document; the others are only known to be there.
-/

namespace LocationBroker.Document

/-- The cause for which a value does not fit. -/
inductive Mismatch where
  /-- A field without a default is not stated. -/
  | missingField (name : String)
  /-- A value is of another type than the wanted one. -/
  | wrongType (format : Format) (found : Value) (wanted : String)
  /-- A name is none of the known ones. -/
  | unknownVariant (name : String) (known : List String)
  /-- An array has not the wanted number of items. -/
  | wrongLength (length : Nat) (wanted : String)
  /-- A table that should name one variant has not exactly one key. -/
  | notOneKey
  /-- A value that should name a variant can name none. -/
  | namesNoVariant
  /-- A variant is given a content that it has not. -/
  | variantContent

/-- Known names as they are offered in a message. -/
def offer (known : List String) : String :=
  let marked := known.map fun name => "`" ++ name ++ "`"
  match marked with
  | [a] => a
  | [a, b] => a ++ " or " ++ b
  | _ => "one of " ++ ", ".intercalate marked

namespace Mismatch

def message : Mismatch → String
  | .missingField name => "missing field `" ++ name ++ "`"
  | .wrongType format found wanted =>
    "invalid type: " ++ found.describe format ++ ", expected " ++ wanted
  | .unknownVariant name known => "unknown variant `" ++ name ++ "`, expected " ++ offer known
  | .wrongLength length wanted => "invalid length " ++ toString length ++ ", expected " ++ wanted
  | .notOneKey => "invalid value: map, expected map with a single key"
  | .namesNoVariant => "wanted string or table"
  | .variantContent => "expected empty table"

/-- Whether the cause is spelled out to the author of the document. -/
def isDetailed : Mismatch → Bool
  | .missingField _ | .wrongType _ _ _ | .unknownVariant _ _ | .notOneKey => true
  | .wrongLength _ _ | .namesNoVariant | .variantContent => false

def detail (m : Mismatch) : Option String :=
  if m.isDetailed then some m.message else none

end Mismatch

end LocationBroker.Document
