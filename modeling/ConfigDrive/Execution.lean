/-
# ConfigDrive.Execution — starting a program from a tree of files.

The system starts the program at a path, and in the place of a script its interpreter, which gets the
path of the script and may be a script itself.  A file in no known format is left to the shell when the
path was looked up in `PATH` or when the program takes the place of the running process.
-/
import ConfigDrive.FileTree.Walk
import ConfigDrive.Host
import ConfigDrive.Script
import ConfigDrive.Shell

namespace ConfigDrive

/-- What runs after a start: a stand-in, under a path and with arguments, or the shell, of which the
end is known. -/
inductive Image
  | standIn (path : String) (args : List String) (p : StandIn)
  | shell (completion : Completion)

/-- The end of what runs. -/
def Image.completion : Image → Completion
  | .standIn _ args p => p.respond args
  | .shell completion => completion

namespace Execution

/-- The text holds the character that ends a text for the system. -/
def hasNul (s : String) : Bool :=
  s.toList.contains '\x00'

/-- The number of bytes that an argument or a variable of a new process must stay below. -/
def argumentLimit : Nat :=
  131072

/-- The text is too long to be given to a new process. -/
def isTooLong (s : String) : Bool :=
  argumentLimit ≤ s.utf8ByteSize

variable (t : FileTree)

/-! ## One file -/

/-- What is at a path, if it may be executed. -/
def executable? (path : String) : Except SystemError Item := do
  let item ← t.lookup path
  if item.isExecutable then return item else throw (.errno .accessDenied)

/-- The shell with some arguments: options, and the file that it runs.  It runs a stand-in as well. -/
def shellImage (args : List String) : Image :=
  match args.dropWhile (·.startsWith "-") with
  | [] => .shell (Shell.quiet 0)
  | script :: rest =>
    match t.lookup script with
    | .ok (.program _ p) => .standIn script rest p
    | .ok (.file _ bytes) => .shell (Shell.run script bytes)
    | _ => .shell (Shell.complaint 2 (Shell.path ++ ": 0: cannot open " ++ script ++ ": No such file"))

/-- How many files the system looks at in one start: that at the path, and interpreters. -/
def fileLimit : Nat :=
  6

/-- Start the program at a path, looking at most at so many files.  A stand-in counts twice, because it
has an interpreter of its own. -/
def execute? : Nat → String → List String → Except SystemError Image
  | 0, path, _ => do
    let _ ← executable? t path
    throw (.errno .tooManyLinks)
  | budget + 1, path, args => do
    match ← executable? t path with
    | .shell => return shellImage t args
    | .program _ p =>
      if budget = 0 then throw (.errno .tooManyLinks) else return .standIn path args p
    | .file _ bytes =>
      match Script.interpreter? bytes with
      | some i => execute? budget i.path (i.argument.toList ++ path :: args)
      | none => throw (.errno .badExecFormat)
    | _ => throw (.errno .accessDenied)

/-- Start the program at a path.  A file in no known format may be left to the shell. -/
def start? (leaveToShell : Bool) (path : String) (args : List String) : Except SystemError Image :=
  match execute? t fileLimit path args with
  | .error (.errno .badExecFormat) =>
    if leaveToShell then execute? t fileLimit Shell.path (path :: args)
    else .error (.errno .badExecFormat)
  | result => result

/-! ## Looking in `PATH` -/

/-- A path that fails in this way is passed over for the next one. -/
def isPassedOver : SystemError → Bool
  | .errno .notFound => true
  | .errno .notADirectory => true
  | .errno .accessDenied => true
  | _ => false

/-- Start the program at the first of these paths that has one.  If there is none, the failure is that
of the last path, unless access to an earlier one was denied. -/
def startFirst? (leaveToShell : Bool) (args : List String) (failure : SystemError) :
    List String → Except SystemError Image
  | [] => .error failure
  | path :: paths =>
    match start? t leaveToShell path args with
    | .ok image => .ok image
    | .error e =>
      if isPassedOver e then
        startFirst? leaveToShell args (if failure = .errno .accessDenied then failure else e) paths
      else .error e

/-- What a command starts, as a new process or in the place of the running one. -/
def image? (replacing : Bool) (c : Host.Command) : Except SystemError Image :=
  if hasNul c.program || hasNul c.path || c.args.any hasNul then .error .nulInArgument
  else if isTooLong ("PATH=" ++ c.path) || c.args.any isTooLong then .error (.errno .argumentTooLong)
  else
    startFirst? t (replacing || !SearchPath.isPath c.program) c.args (.errno .notFound)
      ((SearchPath.ofEnvValue c.path).attempts c.program)

end Execution

end ConfigDrive
