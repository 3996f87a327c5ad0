/-
# ConfigDrive.Host — what is asked of the operating system.

These are the questions that remain when everything that can be decided without the system has been
decided: reading files and directories, making directories, asking whether a path is executable, and
starting programs in one of three ways.  A program is started by its path, with its arguments and with
the value that it sees in `PATH`; a path without a slash is for the system a name, which it looks up in
that value.
-/
import ConfigDrive.Procedure
import ConfigDrive.SystemError
import ConfigDrive.WaitStatus
import ConfigDrive.SearchPath

namespace ConfigDrive.Host

/-- A program to be started. -/
structure Command where
  program : String
  args : List String
  path : String
  deriving DecidableEq, Repr

/-- A question to the system.  A program is started to `collect` what it writes, as a child that shares
the standard streams, or in the place of this process. -/
inductive Question
  | readText (path : String)
  | listDirectory (path : String)
  | makeDirectories (path : String)
  | isExecutable (path : String)
  | collect (command : Command)
  | spawn (command : Command)
  | replace (command : Command)
  deriving DecidableEq, Repr

/-- The type of the answers to a question.  A process that has been replaced gets no answer. -/
@[reducible] def Question.Answer : Question → Type
  | .readText _ => Except SystemError String
  | .listDirectory _ => Except SystemError (List String)
  | .makeDirectories _ => Except SystemError Unit
  | .isExecutable _ => Bool
  | .collect _ => Except SystemError Completion
  | .spawn _ => Except SystemError WaitStatus
  | .replace _ => SystemError

/-- A procedure on the system. -/
abbrev Steps (α : Type) :=
  Procedure Question Question.Answer α

/-! ## Asking -/

/-- Read a file as text. -/
def readText (path : String) : Steps (Except SystemError String) :=
  .question (Question.readText path)

/-- Ask for the names of the entries of a directory, in any order. -/
def listDirectory (path : String) : Steps (Except SystemError (List String)) :=
  .question (Question.listDirectory path)

/-- Have a directory made, with those around it. -/
def makeDirectories (path : String) : Steps (Except SystemError Unit) :=
  .question (Question.makeDirectories path)

/-- Ask whether a path is a file that may be executed. -/
def isExecutable (path : String) : Steps Bool :=
  .question (Question.isExecutable path)

/-- Run a program and collect what it writes. -/
def collect (c : Command) : Steps (Except SystemError Completion) :=
  .question (Question.collect c)

/-- Run a program as a child. -/
def spawn (c : Command) : Steps (Except SystemError WaitStatus) :=
  .question (Question.spawn c)

/-- Run a program in the place of this process.  There is an answer only if that failed. -/
def replace (c : Command) : Steps SystemError :=
  .question (Question.replace c)

/-- The first of these paths that is executable. -/
def firstExecutable : List String → Steps (Option String)
  | [] => return none
  | path :: paths => do
    if ← isExecutable path then return some path
    else firstExecutable paths

/-- The command that starts a program found in a search path. -/
def command? (p : SearchPath) (program : String) (args : List String) : Steps (Option Command) := do
  let found ← firstExecutable (p.candidates program)
  return found.map fun path => ⟨path, args, p.envValue⟩

end ConfigDrive.Host
