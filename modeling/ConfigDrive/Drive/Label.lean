/-
# ConfigDrive.Drive.Label — the volume labels of a config drive.

A config drive is known by its label.  Some filesystems store labels in capitals only, so there are two
of them, and they are looked for in a fixed order.
-/

namespace ConfigDrive.Drive

/-- A volume label of a config drive. -/
inductive Label
  | lower
  | upper
  deriving DecidableEq, Repr

namespace Label

/-- The labels in the order in which they are looked for. -/
def all : List Label :=
  [.lower, .upper]

/-- The label as it is written on the volume. -/
def text : Label → String
  | .lower => "config-2"
  | .upper => "CONFIG-2"

/-- The label with a text. -/
def ofText? (s : String) : Option Label :=
  all.find? (·.text == s)

/-- A label is known by its text. -/
theorem ofText?_text (l : Label) : ofText? l.text = some l := by
  cases l <;> decide

end Label

end ConfigDrive.Drive
