/-
# ConfigDrive.SystemError — what the operating system may answer.

A system call that fails reports an **error number**; a few requests are refused before they reach the
system.  Both are causes here, and `SystemError.message` is the one place where they become text.
-/
import ConfigDrive.Errno

namespace ConfigDrive

/-- Why a request to the system failed. -/
inductive SystemError
  /-- The system call failed with this number. -/
  | errno (e : Errno)
  /-- The bytes of a file are not UTF-8. -/
  | notUtf8
  /-- A path holds a NUL character, which no file name may. -/
  | nulInPath
  /-- An argument or a variable of a new process holds a NUL character. -/
  | nulInArgument
  /-- A directory has no parent in which it could be made. -/
  | noParentDirectory
  deriving DecidableEq, Repr

namespace SystemError

/-- Only an absent file counts as absent; every other failure is one. -/
def isNotFound : SystemError → Bool
  | .errno .notFound => true
  | _ => false

/-- The text of an error. -/
def message : SystemError → String
  | .errno e => e.description ++ " (os error " ++ toString e.code ++ ")"
  | .notUtf8 => "stream did not contain valid UTF-8"
  | .nulInPath => "file name contained an unexpected NUL byte"
  | .nulInArgument => "nul byte found in provided data"
  | .noParentDirectory => "failed to create whole tree"

end SystemError

end ConfigDrive
