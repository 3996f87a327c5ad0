/-
# ConfigDrive.Drive.MountFailure — why a drive was not mounted.

A run goes on without a mount whatever the reason; the reason is only reported.  A target that is
already mounted is the usual one, when several runs race for the same drive.
-/

namespace ConfigDrive.Drive

/-- Why a mount did not happen. -/
inductive MountFailure
  /-- The mount table lists the target. -/
  | alreadyMounted (target : String)
  /-- The mount utility failed; there is no code if a signal ended it. -/
  | exited (code : Option Int) (stderr : String)
  /-- The mount utility could not be started. -/
  | notStarted (message : String)
  deriving DecidableEq, Repr

namespace MountFailure

/-- The words for the end of the mount utility. -/
def exitText : Option Int → String
  | some code => "status " ++ toString code
  | none => "signal"

/-- The words for a failure. -/
def message : MountFailure → String
  | .alreadyMounted target => target ++ " is already mounted"
  | .exited code stderr => "mount exited with " ++ exitText code ++ ": " ++ stderr
  | .notStarted message => "could not run mount: " ++ message

/-- The target is mounted, though not by this attempt. -/
def isAlreadyMounted : MountFailure → Bool
  | .alreadyMounted _ => true
  | _ => false

end MountFailure

end ConfigDrive.Drive
