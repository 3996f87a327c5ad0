/-
# ConfigDrive.Drive.Detection — what was found out about the config drive.

A `Location` names a drive that is present; a `Detection` also tells how its mount went.  A `Report` is
the part of this that can be known without mounting, and `Report.pretty` is its written form.
-/
import ConfigDrive.Drive.FilesystemType
import ConfigDrive.Drive.Label
import ConfigDrive.Drive.MountFailure
import ConfigDrive.Text.Json

namespace ConfigDrive.Drive

/-- A config drive that is present. -/
structure Location where
  label : Label
  device : String
  fsType : FilesystemType
  deriving DecidableEq, Repr

/-- How the mount of a drive went. -/
inductive MountOutcome
  | mounted
  | tolerated (failure : MountFailure)
  deriving DecidableEq, Repr

/-- The outcome of looking for the drive and mounting it. -/
inductive Detection
  | notFound
  | found (location : Location) (mount : MountOutcome)
  deriving DecidableEq, Repr

/-- A drive is present. -/
def Detection.isFound : Detection → Bool
  | .notFound => false
  | .found _ _ => true

/-- What can be told about the drive without mounting it. -/
structure Report where
  location : Option Location
  mountPoint : String
  deriving DecidableEq, Repr

namespace Report

/-- The fields of a report and their written forms, in order. -/
def fields (r : Report) : List (String × String) :=
  let text (s : Option String) := (s.map Text.Json.quoted).getD "null"
  [("found", if r.location.isSome then "true" else "false"),
    ("label", text (r.location.map (·.label.text))),
    ("device", text (r.location.map (·.device))),
    ("fs_type", text (r.location.map (·.fsType.name))),
    ("mount_point", Text.Json.quoted r.mountPoint)]

/-- The report as an object, one field a line. -/
def pretty (r : Report) : String :=
  let row (f : String × String) := "  " ++ Text.Json.quoted f.1 ++ ": " ++ f.2
  "\x7b\n" ++ ",\n".intercalate (r.fields.map row) ++ "\n\x7d"

end Report

end ConfigDrive.Drive
