/-
# ConfigDrive.SearchPath — the directories in which programs are looked up.

Every external program is found in an explicit list of directories, and a started program sees the same
list in its variable `PATH`.  A name that holds a slash is a path and is not looked up.  Whether a path
is executable is a question to the system; here it is a function, so that a look-up is a pure search.

The system has a look-up of its own: it starts a path that holds a slash as it is and looks up any other
in `PATH`.  What was found in an entry that names no directory holds no slash, so it goes through both.
-/
import ConfigDrive.Path

namespace ConfigDrive

/-- An ordered list of directories. -/
structure SearchPath where
  dirs : List String
  deriving DecidableEq, Repr

namespace SearchPath

/-- The directories that are searched unless the configuration names others. -/
def standard : SearchPath :=
  ⟨["/usr/local/bin", "/bin", "/sbin", "/usr/bin", "/usr/sbin"]⟩

/-- The value of `PATH`: the directories, joined by colons. -/
def envValue (p : SearchPath) : String :=
  ":".intercalate p.dirs

/-- The directories that a value of `PATH` names. -/
def ofEnvValue (value : String) : SearchPath :=
  ⟨(Text.pieces ':' value.toList).map String.ofList⟩

/-- The name holds a slash, so it is a path. -/
def isPath (program : String) : Bool :=
  program.toList.contains '/'

/-- The paths at which a program may be, in the order in which they are tried. -/
def candidates (p : SearchPath) (program : String) : List String :=
  if isPath program then [program] else p.dirs.map (Path.join · program)

/-- The path at which the system tries a program for an entry of `PATH`.  An entry that is empty, or as
long as no path can be, stands for the working directory. -/
def entryPath (program dir : String) : String :=
  if dir.isEmpty || Path.byteLimit ≤ dir.utf8ByteSize then program else dir ++ "/" ++ program

/-- The paths at which the system tries to start a program, when these directories are in `PATH`. -/
def attempts (p : SearchPath) (program : String) : List String :=
  if isPath program then [program] else p.dirs.map (entryPath program)

/-- The first path at which a program is executable. -/
def resolve (p : SearchPath) (isExecutable : String → Bool) (program : String) : Option String :=
  (p.candidates program).find? isExecutable

/-- What a look-up finds is a candidate and executable. -/
theorem resolve_eq_some {p : SearchPath} {isExecutable : String → Bool} {program found : String}
    (h : p.resolve isExecutable program = some found) :
    found ∈ p.candidates program ∧ isExecutable found = true :=
  ⟨List.mem_of_find?_eq_some h, List.find?_some h⟩

/-- A look-up fails exactly when no candidate is executable. -/
theorem resolve_eq_none_iff {p : SearchPath} {isExecutable : String → Bool} {program : String} :
    p.resolve isExecutable program = none ↔
      ∀ c ∈ p.candidates program, isExecutable c = false := by
  simp [resolve]

end SearchPath

end ConfigDrive
