/-
# ConfigDrive.Path — paths as text.

A path is the text it was given as: nothing is normalised when it is stored or printed.  Two paths are
**the same** when they have the same components, where repeated and trailing slashes and every `.` but
a leading one do not count.  Joining appends text, and an absolute second part replaces the first.
`parent?` and `extension?` read the text from its end.
-/
import ConfigDrive.Text.Pieces

namespace ConfigDrive.Path

/-- The number of bytes that a path must stay below to be taken by the system. -/
def byteLimit : Nat :=
  4096

/-! ## Components -/

/-- A component of a path. -/
inductive Component
  | root
  | here
  | up
  | name (text : List Char)
  deriving DecidableEq, Repr

/-- A piece between slashes that names no component: it is empty or a single dot. -/
def isSilent (p : List Char) : Bool :=
  p.isEmpty || p == ['.']

/-- The component that a piece names, if any. -/
def component? (p : List Char) : Option Component :=
  if isSilent p then none else if p = ['.', '.'] then some .up else some (.name p)

/-- The text is an absolute path. -/
def isAbsolute : List Char → Bool
  | '/' :: _ => true
  | _ => false

/-- Cut a path into what stands before its pieces, a root slash or a leading dot, and the rest. -/
def splitStart : List Char → List Char × List Char
  | '/' :: rest => (['/'], rest)
  | ['.'] => (['.'], [])
  | '.' :: '/' :: rest => (['.'], '/' :: rest)
  | s => ([], s)

/-- The component that the start of a path contributes. -/
def startComponent? : List Char → Option Component
  | ['/'] => some .root
  | ['.'] => some .here
  | _ => none

/-- The components of a path. -/
def components (s : List Char) : List Component :=
  (startComponent? (splitStart s).1).toList ++ (Text.pieces '/' (splitStart s).2).filterMap component?

/-- Two path texts name the same path. -/
def same (a b : String) : Bool :=
  components a.toList == components b.toList

/-! ## Joining -/

/-- Append a path to a directory: an absolute one replaces it, any other is set off by exactly the
slash that is needed. -/
def joinChars (dir path : List Char) : List Char :=
  if isAbsolute path || dir.isEmpty then path
  else if dir.getLast? = some '/' then dir ++ path
  else dir ++ '/' :: path

/-- Append a path to a directory. -/
def join (dir path : String) : String :=
  String.ofList (joinChars dir.toList path.toList)

/-! ## The end of a path -/

/-- The pieces without the silent ones at their end. -/
def trimPieces (ps : List (List Char)) : List (List Char) :=
  (ps.reverse.dropWhile isSilent).reverse

/-- The directory that a path is in: its text without the last component and the slashes and dots
before it.  A root and an empty path are in none. -/
def parentChars? (s : List Char) : Option (List Char) :=
  let (start, rest) := splitStart s
  match trimPieces (Text.pieces '/' rest) with
  | [] => if start = ['.'] then some [] else none
  | ps => some (start ++ Text.joined '/' (trimPieces ps.dropLast))

/-- The directory that a path is in. -/
def parent? (path : String) : Option String :=
  (parentChars? path.toList).map String.ofList

/-- The extension of a file name: what follows its last dot, if something precedes that dot. -/
def extension? (name : String) : Option String :=
  let chars := name.toList
  if chars = ['.', '.'] then none
  else
    let ext := (chars.reverse.takeWhile (· ≠ '.')).reverse
    if ext.length + 1 < chars.length then some (String.ofList ext) else none

/-! ## Small laws -/

/-- An absolute path replaces the directory it is joined to. -/
theorem join_absolute (dir : List Char) (rest : List Char) :
    joinChars dir ('/' :: rest) = '/' :: rest := by
  simp [joinChars, isAbsolute]

/-- Every path is the same as itself. -/
theorem same_self (a : String) : same a a = true := by
  simp [same]

end ConfigDrive.Path
