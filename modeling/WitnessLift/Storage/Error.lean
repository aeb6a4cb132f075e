-- SUMMARY: The causes for which a file operation fails.
/-!
# Storage errors

Why a file could not be opened, read, written, renamed or removed.
-/

namespace WitnessLift

/-- The cause of a failed file operation. `full` is a destination that takes no more bytes, and
`other` a cause outside this list, in the words of the system. -/
inductive StorageError where
  | notFound
  | notDirectory
  | isDirectory
  | nameTooLong
  | busy
  | nulInPath
  | notText
  | full
  | other (description : String)
  deriving DecidableEq, Repr

/-- The words for a storage error. -/
def StorageError.message : StorageError → String
  | .notFound => "No such file or directory (os error 2)"
  | .notDirectory => "Not a directory (os error 20)"
  | .isDirectory => "Is a directory (os error 21)"
  | .nameTooLong => "File name too long (os error 36)"
  | .busy => "Device or resource busy (os error 16)"
  | .nulInPath => "file name contained an unexpected NUL byte"
  | .notText => "stream did not contain valid UTF-8"
  | .full => "write limit reached"
  | .other description => description

end WitnessLift
