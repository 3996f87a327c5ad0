/-
# ConfigDrive.Text.Blank — white space, trimming and field splitting.

A character is **blank** when it has the Unicode property `White_Space`.  Trimming removes blanks at
both ends of a text; splitting into fields cuts a text at every run of blanks and never yields an
empty field.  Everything is stated over lists of characters, so that the laws below need no string
library; `Text.trimmed` is the form used on strings.
-/

namespace ConfigDrive.Text

/-! ## The class of blank characters -/

/-- The Unicode property `White_Space`: the ASCII blanks U+0009 to U+000D and the space, the next-line
and no-break characters, and the spaces and separators above U+1680. -/
def isBlank (c : Char) : Bool :=
  let n := c.toNat
  (9 ≤ n && n ≤ 13) || n == 0x20 || n == 0x85 || n == 0xA0 || n == 0x1680 ||
  (0x2000 ≤ n && n ≤ 0x200A) || n == 0x2028 || n == 0x2029 || n == 0x202F || n == 0x205F ||
  n == 0x3000

/-- Every character that the standard library calls white space is blank. -/
theorem isBlank_of_isWhitespace {c : Char} (h : c.isWhitespace = true) : isBlank c = true := by
  simp only [Char.isWhitespace, Bool.or_eq_true, decide_eq_true_eq] at h
  rcases h with ((rfl | rfl) | rfl) | rfl <;> decide

/-! ## Trimming -/

/-- The text without its leading blanks. -/
def trimLeft (s : List Char) : List Char :=
  s.dropWhile isBlank

/-- The text without its trailing blanks. -/
def trimRight (s : List Char) : List Char :=
  (s.reverse.dropWhile isBlank).reverse

/-- The text without the blanks at its two ends. -/
def trim (s : List Char) : List Char :=
  trimRight (trimLeft s)

/-- Trimming on strings. -/
def trimmed (s : String) : String :=
  String.ofList (trim s.toList)

/-! ## Fields -/

/-- Put a character before the fields of the text that follows it.  When a blank or the end follows
(`apart`), the character is a field of its own; otherwise it belongs to the first field. -/
def consField (c : Char) (apart : Bool) : List (List Char) → List (List Char)
  | [] => [[c]]
  | f :: fs => if apart then [c] :: f :: fs else (c :: f) :: fs

/-- The maximal runs of non-blank characters, in order. -/
def fields : List Char → List (List Char)
  | [] => []
  | c :: cs =>
    if isBlank c then fields cs else consField c (cs.head?.all isBlank) (fields cs)

/-- A leading blank does not change the fields. -/
theorem fields_cons_blank {c : Char} (h : isBlank c = true) (cs : List Char) :
    fields (c :: cs) = fields cs := by
  simp [fields, h]

end ConfigDrive.Text
