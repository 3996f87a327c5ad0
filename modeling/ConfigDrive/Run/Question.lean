/-
# ConfigDrive.Run.Question — what a run has to ask.

A run asks about labels, has the mount point made and the drive mounted, and at last starts a tool.
Each question is one step on the host, so that the steps of several runs can be taken in turns.  A mount
that fails with an exit status is not yet classified: that takes a second question, the one about the
mount table.
-/
import ConfigDrive.Drive.MountTable
import ConfigDrive.Handoff
import ConfigDrive.Procedure
import ConfigDrive.RunError

namespace ConfigDrive.Run

open ConfigDrive.Drive (FilesystemType Label MountFailure MountOptions MountTable)

/-- What came of an attempt to mount: it succeeded, it failed for a known reason, or the mount utility
ran and failed. -/
inductive MountAttempt
  | mounted
  | refused (failure : MountFailure)
  | exited (code : Option Nat) (stderr : String)
  deriving DecidableEq, Repr

/-- A mount table that could not be read. -/
structure UnreadableTable where
  path : String
  error : SystemError
  deriving DecidableEq, Repr

/-- A question of a run. -/
inductive Question
  | hasLabel (label : Label)
  | deviceFor (label : Label)
  | filesystemType (label : Label)
  | makeMountPoint (path : String)
  | attemptMount (device target : String) (options : MountOptions)
  | readMountTable
  | launch (invocation : Invocation)
  deriving DecidableEq, Repr

/-- The type of the answers to a question. -/
@[reducible] def Question.Answer : Question → Type
  | .hasLabel _ => Except RunError Bool
  | .deviceFor _ => Except RunError String
  | .filesystemType _ => Except RunError FilesystemType
  | .makeMountPoint _ => Except SystemError Unit
  | .attemptMount _ _ _ => MountAttempt
  | .readMountTable => Except UnreadableTable MountTable
  | .launch _ => Except RunError Nat

/-- A part of a run that cannot fail. -/
abbrev Steps (α : Type) :=
  Procedure Question Question.Answer α

/-- A part of a run that may give the run up. -/
abbrev RunM (α : Type) :=
  ExceptT RunError (Procedure Question Question.Answer) α

/-! ## Asking -/

/-- Ask whether a label is present. -/
def hasLabel (l : Label) : RunM Bool :=
  ExceptT.mk (.question (Question.hasLabel l))

/-- Ask for the device with a label. -/
def deviceFor (l : Label) : RunM String :=
  ExceptT.mk (.question (Question.deviceFor l))

/-- Ask for the type of the filesystem with a label. -/
def filesystemType (l : Label) : RunM FilesystemType :=
  ExceptT.mk (.question (Question.filesystemType l))

/-- Have the mount point made. -/
def makeMountPoint (path : String) : RunM Unit :=
  ExceptT.mk (Except.mapError (RunError.mountPoint path) <$>
    Procedure.question (Question.makeMountPoint path))

/-- Have a device mounted on a target. -/
def attemptMount (device target : String) (options : MountOptions) : Steps MountAttempt :=
  .question (Question.attemptMount device target options)

/-- Ask for the mount table. -/
def readMountTable : Steps (Except UnreadableTable MountTable) :=
  .question Question.readMountTable

/-- Have a tool started. -/
def launch (i : Invocation) : RunM Nat :=
  ExceptT.mk (.question (Question.launch i))

/-- Report a line of the log. -/
def say (level : Log.Level) (message : String) : RunM Unit :=
  ExceptT.lift (.say level message)

end ConfigDrive.Run
