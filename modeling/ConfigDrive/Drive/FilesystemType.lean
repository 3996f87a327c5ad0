/-
# ConfigDrive.Drive.FilesystemType — the filesystem of a drive and how it is mounted.

The two filesystems that config drives usually have are mounted with options of their own; any other,
also one that was not reported, is mounted without naming its type.
-/
import ConfigDrive.Text.Blank

namespace ConfigDrive.Drive

/-! ## Mount options -/

/-- What the mount utility is told about a filesystem: its type, if it is named, and the options. -/
structure MountOptions where
  fsType : Option String
  options : String
  deriving DecidableEq, Repr

namespace MountOptions

/-- The arguments before the device and the target. -/
def args (o : MountOptions) : List String :=
  (match o.fsType with
    | some t => ["-t", t]
    | none => []) ++ ["-o", o.options]

/-- One of the options asks for a mount that cannot be written to. -/
def isReadOnly (o : MountOptions) : Bool :=
  (o.options.splitOn ",").contains "ro"

end MountOptions

/-! ## Filesystem types -/

/-- The type of a filesystem. -/
inductive FilesystemType
  | vfat
  | iso9660
  | other (name : String)
  deriving DecidableEq, Repr

namespace FilesystemType

/-- The type with a name; blanks around it do not count. -/
def ofText (s : String) : FilesystemType :=
  let name := Text.trimmed s
  if name = "vfat" then .vfat else if name = "iso9660" then .iso9660 else .other name

/-- The name of a type. -/
def name : FilesystemType → String
  | .vfat => "vfat"
  | .iso9660 => "iso9660"
  | .other name => name

/-- The type as messages show it. -/
def text (t : FilesystemType) : String :=
  if t.name.isEmpty then "<unspecified>" else t.name

/-- How a filesystem of this type is mounted. -/
def mountOptions : FilesystemType → MountOptions
  | .vfat => ⟨some "vfat", "umask=0077"⟩
  | .iso9660 => ⟨some "iso9660", "ro,mode=0700"⟩
  | .other _ => ⟨none, "rw,mode=0700"⟩

end FilesystemType

end ConfigDrive.Drive
