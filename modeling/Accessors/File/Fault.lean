/-!
What can go wrong when a file is read or written, and how the system words it.
-/

namespace Accessors.File

inductive Fault where
  | notFound
  /-- The path, or what it leads through, exists already. -/
  | exists
  | notDirectory
  | isDirectory
  | deviceFull
  | nameTooLong
  | nulInPath
  | notText
  /-- A directory that cannot be made because nothing is above it. -/
  | noParent
  deriving DecidableEq, Repr, Inhabited

/-- The system's wording, with its number where it has one. -/
def Fault.message : Fault → String
  | .notFound => "No such file or directory (os error 2)"
  | .exists => "File exists (os error 17)"
  | .notDirectory => "Not a directory (os error 20)"
  | .isDirectory => "Is a directory (os error 21)"
  | .deviceFull => "No space left on device (os error 28)"
  | .nameTooLong => "File name too long (os error 36)"
  | .nulInPath => "file name contained an unexpected NUL byte"
  | .notText => "stream did not contain valid UTF-8"
  | .noParent => "failed to create whole tree"

end Accessors.File
