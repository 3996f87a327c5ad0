/-
# ConfigDrive.Text.Pieces — cutting a text at a separator.

The pieces of a text are what stands between the separators, empty pieces included, so there is always
at least one.  `joined` puts the separators back.
-/

namespace ConfigDrive.Text

/-- The pieces of a text between separators. -/
def pieces (sep : Char) : List Char → List (List Char)
  | [] => [[]]
  | c :: cs =>
    if c = sep then [] :: pieces sep cs
    else
      match pieces sep cs with
      | [] => [[c]]
      | p :: ps => (c :: p) :: ps

/-- The text whose pieces these are. -/
def joined (sep : Char) : List (List Char) → List Char
  | [] => []
  | [p] => p
  | p :: ps => p ++ sep :: joined sep ps

/-- Every text has a piece. -/
theorem pieces_ne_nil (sep : Char) (s : List Char) : pieces sep s ≠ [] := by
  cases s with
  | nil => simp [pieces]
  | cons c cs =>
    simp only [pieces]
    split
    · simp
    · split <;> simp

/-- Cutting a text into pieces loses nothing. -/
theorem joined_pieces (sep : Char) (s : List Char) : joined sep (pieces sep s) = s := by
  induction s with
  | nil => rfl
  | cons c cs ih =>
    simp only [pieces]
    cases hp : pieces sep cs with
    | nil => exact absurd hp (pieces_ne_nil sep cs)
    | cons p ps =>
      rw [hp] at ih
      split
      · next h => simp [joined, ih, h]
      · cases ps with
        | nil => simpa [joined] using ih
        | cons q qs => simpa [joined] using ih

end ConfigDrive.Text
