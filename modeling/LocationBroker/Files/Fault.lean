/-! # Faults of the file system

Why a file or a directory could not be read, and the wording of each cause.
-/

namespace LocationBroker.Files

/-- The cause for which a file or a directory could not be read. -/
inductive Fault where
  | notFound
  | notADirectory
  | isADirectory
  | nameTooLong
  /-- A name holds a character that no name can hold. -/
  | nulInName
  /-- The content is no text. -/
  | notText
  /-- A cause that is known by its wording only. -/
  | other (wording : String)
  deriving DecidableEq

/-- The wording of a cause. -/
def Fault.message : Fault → String
  | .notFound => "No such file or directory (os error 2)"
  | .notADirectory => "Not a directory (os error 20)"
  | .isADirectory => "Is a directory (os error 21)"
  | .nameTooLong => "File name too long (os error 36)"
  | .nulInName => "file name contained an unexpected NUL byte"
  | .notText => "stream did not contain valid UTF-8"
  | .other wording => wording

end LocationBroker.Files
