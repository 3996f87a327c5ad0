/-
# ConfigDrive.Utilities — answering the questions of a run by programs.

Labels are looked up by `blkid`, drives are mounted by `mount`, and the last tool is started as it is
asked for; all of them are found in the configured directories and see only these in `PATH`.  What the
exit status and the output of `blkid` mean is a function on its own, so that it can be reasoned about
without any system.

The log has the lines that name a program and its arguments.  Left out are those that show a command as a
whole for debugging, with its environment: before the last tool is started in either mode, and after it
has been waited for.
-/
import ConfigDrive.Host
import ConfigDrive.Run.Question
import ConfigDrive.Text.Quoted
import ConfigDrive.Text.Utf8

namespace ConfigDrive

open ConfigDrive.Drive (FilesystemType Label MountOptions MountTable)

/-! ## Reading the answers of the probe utility -/

namespace Blkid

/-- The arguments that ask whether a label is present. -/
def labelArgs (l : Label) : List String :=
  ["-t", "LABEL=" ++ l.text]

/-- The arguments that ask for the device with a label. -/
def deviceArgs (l : Label) : List String :=
  ["-L", l.text]

/-- The arguments that ask for the type of the filesystem with a label. -/
def typeArgs (l : Label) : List String :=
  labelArgs l ++ ["-s", "TYPE", "-o", "value"]

/-- An end that is no answer. -/
def badStatus (l : Label) (args : List String) (c : Completion) : RunError :=
  .probe l.text (.badStatus args c.status.code?)

/-- Whether a label is present: the utility exits with 0 if it is and with 2 if not. -/
def labelAnswer (l : Label) (c : Completion) : Except RunError Bool :=
  if c.status.code? = some 0 then .ok true
  else if c.status.code? = some 2 then .ok false
  else .error (badStatus l (labelArgs l) c)

/-- The first line of an output that is not blank, trimmed. -/
def firstText? (output : List UInt8) : Option String :=
  (((Text.lines (Text.Utf8.decodeLossy output)).map Text.trim).find? (!·.isEmpty)).map String.ofList

/-- The device with a label: the first text that the utility prints. -/
def deviceAnswer (l : Label) (c : Completion) : Except RunError String :=
  if c.status.code? = some 0 then
    match firstText? c.stdout with
    | some device => .ok device
    | none => .error (.probe l.text .noDevice)
  else .error (badStatus l (deviceArgs l) c)

/-- The type of a filesystem: the first line that the utility prints, which may be missing. -/
def typeAnswer (l : Label) (c : Completion) : Except RunError FilesystemType :=
  if c.status.code? = some 0 then
    let line := (Text.lines (Text.Utf8.decodeLossy c.stdout)).head?.getD []
    .ok (.ofText (String.ofList line))
  else .error (badStatus l (typeArgs l) c)

end Blkid

/-! ## Starting the programs -/

/-- The programs that a run uses, where they are looked up, and where the mount table is read. -/
structure Utilities where
  blkid : String
  mount : String
  searchPath : SearchPath
  mountTable : String := "/proc/self/mounts"

namespace Utilities

/-- The configured programs. -/
def ofConfig (c : Config) : Utilities :=
  { blkid := c.blkid, mount := c.mount, searchPath := c.allowList }

variable (u : Utilities)

/-- A program that is in none of the directories. -/
def notFound (program : String) : RunError :=
  .programNotFound program u.searchPath

/-- Ask the probe utility about a label. -/
def askBlkid (l : Label) (args : List String) : Host.Steps (Except RunError Completion) := do
  .say .trace ("Running " ++ u.blkid ++ " " ++ Text.quotedList args)
  match ← Host.command? u.searchPath u.blkid args with
  | none => return .error (u.notFound u.blkid)
  | some command =>
    match ← Host.collect command with
    | .ok completion => return .ok completion
    | .error e => return .error (.probe l.text (.notStarted e))

/-- Have the mount utility mount a device on a target.  The line that announces it stands for one that
shows the command as a whole; it tells program and arguments. -/
def attemptMount (device target : String) (options : MountOptions) :
    Host.Steps Run.MountAttempt := do
  match ← Host.command? u.searchPath u.mount (options.args ++ [device, target]) with
  | none => return .refused (.notStarted (u.notFound u.mount).message)
  | some command =>
    .say .trace ("Running " ++ Text.quotedList (command.program :: command.args))
    match ← Host.collect command with
    | .error e => return .refused (.notStarted e.message)
    | .ok c =>
      if c.status.isSuccess then return .mounted
      else return .exited c.status.code? (Text.trimmed (Text.Utf8.text c.stderr))

/-- Read the mount table. -/
def readMountTable : Host.Steps (Except Run.UnreadableTable MountTable) := do
  match ← Host.readText u.mountTable with
  | .ok text => return .ok (.ofText text)
  | .error e => return .error ⟨u.mountTable, e⟩

/-- Start the last tool.  The result is the exit status to pass on; there is none if this process was
replaced.  Nothing about the command is logged here: who hands off to the tool has announced it. -/
def launch (i : Invocation) : Host.Steps (Except RunError Nat) := do
  match ← Host.command? u.searchPath i.program i.args with
  | none => return .error (u.notFound i.program)
  | some command =>
    match i.mode with
    | .replace => return .error (.launch i.program (.notStarted (← Host.replace command)))
    | .spawn =>
      match ← Host.spawn command with
      | .ok status => return .ok status.exitCode
      | .error e => return .error (.launch i.program (.notStarted e))

/-- Answer a question of a run. -/
def answer : (q : Run.Question) → Host.Steps q.Answer
  | .hasLabel l => do return (← u.askBlkid l (Blkid.labelArgs l)).bind (Blkid.labelAnswer l)
  | .deviceFor l => do return (← u.askBlkid l (Blkid.deviceArgs l)).bind (Blkid.deviceAnswer l)
  | .filesystemType l => do return (← u.askBlkid l (Blkid.typeArgs l)).bind (Blkid.typeAnswer l)
  | .makeMountPoint path => Host.makeDirectories path
  | .attemptMount device target options => u.attemptMount device target options
  | .readMountTable => u.readMountTable
  | .launch i => u.launch i

/-- A run on the system. -/
def perform {α : Type} (r : Run.RunM α) : Host.Steps (Except RunError α) :=
  Procedure.refine u.answer r

end Utilities

end ConfigDrive
