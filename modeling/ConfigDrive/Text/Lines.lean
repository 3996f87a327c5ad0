/-
# ConfigDrive.Text.Lines — cutting a text into lines.

A line ends at a line feed, and a single carriage return just before that line feed belongs to the
line's end.  An unfinished last piece is a line only if it is not empty; a carriage return that no
line feed follows stays in its line.
-/

namespace ConfigDrive.Text

/-- The lines of a text, without their ends. -/
def lines : List Char → List (List Char)
  | [] => []
  | '\n' :: cs => [] :: lines cs
  | '\r' :: '\n' :: cs => [] :: lines cs
  | c :: cs =>
    match lines cs with
    | [] => [[c]]
    | l :: ls => (c :: l) :: ls

/-- Only the empty text has no line. -/
theorem lines_eq_nil_iff (s : List Char) : lines s = [] ↔ s = [] := by
  constructor
  · intro h
    match s with
    | [] => rfl
    | c :: cs =>
      unfold lines at h
      split at h <;> simp_all
      split at h <;> simp_all
  · rintro rfl
    rfl

end ConfigDrive.Text
