/-
# ConfigDrive.Errno — the error numbers of the system.

A system call that fails reports a number.  The system has a description of its own for every number
that it knows; `Errno.description` is that list, and numbers beyond it are described as unknown.
-/

namespace ConfigDrive

/-- The number that a failed system call reports. -/
structure Errno where
  code : Int
  deriving DecidableEq, Repr

namespace Errno

/-! ## The numbers that decide something here -/

/-- The operation needs a privilege that the process lacks. -/
@[match_pattern]
def notPermitted : Errno :=
  ⟨1⟩

/-- Nothing is at the path. -/
@[match_pattern]
def notFound : Errno :=
  ⟨2⟩

/-- An argument of a new process has too many bytes. -/
@[match_pattern]
def argumentTooLong : Errno :=
  ⟨7⟩

/-- A file is in no format that could be run. -/
@[match_pattern]
def badExecFormat : Errno :=
  ⟨8⟩

/-- A permission is missing. -/
@[match_pattern]
def accessDenied : Errno :=
  ⟨13⟩

/-- Something is at the path already. -/
@[match_pattern]
def alreadyExists : Errno :=
  ⟨17⟩

/-- A part of the path is no directory. -/
@[match_pattern]
def notADirectory : Errno :=
  ⟨20⟩

/-- A directory is where a file was expected. -/
@[match_pattern]
def isADirectory : Errno :=
  ⟨21⟩

/-- A name or a path has too many bytes. -/
@[match_pattern]
def nameTooLong : Errno :=
  ⟨36⟩

/-- A path leads through too many links. -/
@[match_pattern]
def tooManyLinks : Errno :=
  ⟨40⟩

/-! ## Descriptions -/

/-- The descriptions of the numbers from zero on; a number that is not in use has none. -/
def descriptions : List String := [
    "Success",
    "Operation not permitted",
    "No such file or directory",
    "No such process",
    "Interrupted system call",
    "Input/output error",
    "No such device or address",
    "Argument list too long",
    "Exec format error",
    "Bad file descriptor",
    "No child processes",
    "Resource temporarily unavailable",
    "Cannot allocate memory",
    "Permission denied",
    "Bad address",
    "Block device required",
    "Device or resource busy",
    "File exists",
    "Invalid cross-device link",
    "No such device",
    "Not a directory",
    "Is a directory",
    "Invalid argument",
    "Too many open files in system",
    "Too many open files",
    "Inappropriate ioctl for device",
    "Text file busy",
    "File too large",
    "No space left on device",
    "Illegal seek",
    "Read-only file system",
    "Too many links",
    "Broken pipe",
    "Numerical argument out of domain",
    "Numerical result out of range",
    "Resource deadlock avoided",
    "File name too long",
    "No locks available",
    "Function not implemented",
    "Directory not empty",
    "Too many levels of symbolic links",
    "",
    "No message of desired type",
    "Identifier removed",
    "Channel number out of range",
    "Level 2 not synchronized",
    "Level 3 halted",
    "Level 3 reset",
    "Link number out of range",
    "Protocol driver not attached",
    "No CSI structure available",
    "Level 2 halted",
    "Invalid exchange",
    "Invalid request descriptor",
    "Exchange full",
    "No anode",
    "Invalid request code",
    "Invalid slot",
    "",
    "Bad font file format",
    "Device not a stream",
    "No data available",
    "Timer expired",
    "Out of streams resources",
    "Machine is not on the network",
    "Package not installed",
    "Object is remote",
    "Link has been severed",
    "Advertise error",
    "Srmount error",
    "Communication error on send",
    "Protocol error",
    "Multihop attempted",
    "RFS specific error",
    "Bad message",
    "Value too large for defined data type",
    "Name not unique on network",
    "File descriptor in bad state",
    "Remote address changed",
    "Can not access a needed shared library",
    "Accessing a corrupted shared library",
    ".lib section in a.out corrupted",
    "Attempting to link in too many shared libraries",
    "Cannot exec a shared library directly",
    "Invalid or incomplete multibyte or wide character",
    "Interrupted system call should be restarted",
    "Streams pipe error",
    "Too many users",
    "Socket operation on non-socket",
    "Destination address required",
    "Message too long",
    "Protocol wrong type for socket",
    "Protocol not available",
    "Protocol not supported",
    "Socket type not supported",
    "Operation not supported",
    "Protocol family not supported",
    "Address family not supported by protocol",
    "Address already in use",
    "Cannot assign requested address",
    "Network is down",
    "Network is unreachable",
    "Network dropped connection on reset",
    "Software caused connection abort",
    "Connection reset by peer",
    "No buffer space available",
    "Transport endpoint is already connected",
    "Transport endpoint is not connected",
    "Cannot send after transport endpoint shutdown",
    "Too many references: cannot splice",
    "Connection timed out",
    "Connection refused",
    "Host is down",
    "No route to host",
    "Operation already in progress",
    "Operation now in progress",
    "Stale file handle",
    "Structure needs cleaning",
    "Not a XENIX named type file",
    "No XENIX semaphores available",
    "Is a named type file",
    "Remote I/O error",
    "Disk quota exceeded",
    "No medium found",
    "Wrong medium type",
    "Operation canceled",
    "Required key not available",
    "Key has expired",
    "Key has been revoked",
    "Key was rejected by service",
    "Owner died",
    "State not recoverable",
    "Operation not possible due to RF-kill",
    "Memory page has hardware error"]

/-- The system's own description of an error. -/
def description (e : Errno) : String :=
  match if e.code < 0 then none else descriptions[e.code.toNat]? with
  | none | some "" => "Unknown error " ++ toString e.code
  | some text => text

/-- No negative number is known. -/
theorem description_of_neg {e : Errno} (h : e.code < 0) :
    e.description = "Unknown error " ++ toString e.code := by
  simp [description, h]

end Errno

end ConfigDrive
