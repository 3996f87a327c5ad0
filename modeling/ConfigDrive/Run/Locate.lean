/-
# ConfigDrive.Run.Locate — finding and mounting the config drive.

The labels are looked for in their order, and the first one that is present decides.  `probe` only
describes the drive; `locate` also makes the mount point, before it asks for anything else, and mounts
the drive on it.  No drive is a normal outcome, and so is a mount that failed.
-/
import ConfigDrive.Run.Question

namespace ConfigDrive.Run

open ConfigDrive.Drive

/-! ## Finding the drive -/

/-- The first of these labels that is present. -/
def findAmong : List Label → RunM (Option Label)
  | [] => do
    say .debug "No config drive label present"
    return none
  | l :: ls => do
    say .debug ("Probing for label " ++ l.text)
    if ← hasLabel l then
      say .info ("Found config drive labelled " ++ l.text)
      return some l
    else findAmong ls

/-- The first label that is present. -/
def findLabel : RunM (Option Label) :=
  findAmong Label.all

/-- The drive with a label. -/
def describe (label : Label) : RunM Location := do
  let device ← deviceFor label
  let fsType ← filesystemType label
  say .debug (label.text ++ " is " ++ device ++ " (" ++ fsType.text ++ ")")
  return ⟨label, device, fsType⟩

/-- The drive, if there is one. -/
def probe : RunM (Option Location) := do
  match ← findLabel with
  | some label => return some (← describe label)
  | none => return none

/-! ## Mounting it -/

/-- Why the mount utility failed: a target that is in the mount table is already mounted. -/
def classify (target : String) (code : Option Nat) (stderr : String) : Steps MountFailure := do
  match ← readMountTable with
  | .ok table =>
    if table.hasTarget target then return .alreadyMounted target
    else return .exited (code.map fun c => (c : Int)) stderr
  | .error e =>
    .say .debug ("Could not read " ++ e.path ++ ": " ++ e.error.message)
    return .exited (code.map fun c => (c : Int)) stderr

/-- Mount a device on a target. -/
def mountDevice (device target : String) (options : MountOptions) :
    Steps (Except MountFailure Unit) := do
  match ← attemptMount device target options with
  | .mounted => return .ok ()
  | .refused failure => return .error failure
  | .exited code stderr => return .error (← classify target code stderr)

/-- How severe the report of a failed mount is. -/
def failureLevel (failure : MountFailure) : Log.Level :=
  if failure.isAlreadyMounted then .debug else .warn

/-- Mount the drive, whatever comes of it. -/
def mount (mountPoint : String) (location : Location) : Steps MountOutcome := do
  let options := location.fsType.mountOptions
  match ← mountDevice location.device mountPoint options with
  | .ok () =>
    .say .info ("Mounted " ++ location.device ++ " on " ++ mountPoint ++ " (" ++ options.options ++ ")")
    return .mounted
  | .error failure =>
    .say (failureLevel failure) ("Continuing without mount: " ++ failure.message)
    return .tolerated failure

/-- Find the drive and mount it, if there is one. -/
def locate (mountPoint : String) : RunM Detection := do
  match ← findLabel with
  | none => return .notFound
  | some label =>
    makeMountPoint mountPoint
    let location ← describe label
    return .found location (← ExceptT.lift (mount mountPoint location))

end ConfigDrive.Run
