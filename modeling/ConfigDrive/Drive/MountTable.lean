/-
# ConfigDrive.Drive.MountTable — the kernel's table of mounts.

A line of the table lists a source, a target, a filesystem type and options, separated by blanks, and
possibly more; in source and target octal escapes stand for blanks and backslashes.  Lines with fewer
fields are skipped.
-/
import ConfigDrive.Path
import ConfigDrive.Text.Blank
import ConfigDrive.Text.Lines
import ConfigDrive.Text.Octal

namespace ConfigDrive.Drive

/-- One mount. -/
structure MountEntry where
  source : String
  target : String
  fsType : String
  options : String
  deriving DecidableEq, Repr

/-- The mounts of a system. -/
structure MountTable where
  entries : List MountEntry
  deriving DecidableEq, Repr

namespace MountTable

/-- The mount that a line lists, if it has enough fields. -/
def entry? (line : List Char) : Option MountEntry :=
  match Text.fields line with
  | source :: target :: fsType :: options :: _ =>
    some
      { source := String.ofList (Text.Octal.unescape source)
        target := String.ofList (Text.Octal.unescape target)
        fsType := String.ofList fsType
        options := String.ofList options }
  | _ => none

/-- The mounts that a text lists. -/
def ofChars (text : List Char) : MountTable :=
  ⟨(Text.lines text).filterMap entry?⟩

/-- The mounts that a text lists. -/
def ofText (text : String) : MountTable :=
  ofChars text.toList

/-- Something is mounted on a target. -/
def hasTarget (t : MountTable) (target : String) : Bool :=
  t.entries.any fun e => Path.same e.target target

end MountTable

end ConfigDrive.Drive
