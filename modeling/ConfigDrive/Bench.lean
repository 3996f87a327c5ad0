/-
# ConfigDrive.Bench — a run without programs.

A bench answers the questions of a run from a table of drives, fails where it is told to, and notes what
was asked of it.  Only the mount point is made for real, in a tree of files.
-/
import ConfigDrive.FileTree.Walk
import ConfigDrive.Run.Question

namespace ConfigDrive

open ConfigDrive.Drive (FilesystemType Label MountFailure MountOptions)

/-- A mount that was asked for. -/
structure MountCall where
  device : String
  target : String
  options : MountOptions
  deriving DecidableEq, Repr

/-- The drives that are attached, the failures that are wanted, and notes on what was asked, in order. -/
structure Bench where
  tree : FileTree
  drives : List (Label × String × FilesystemType) := []
  probeError : Option String := none
  mountFailure : Option MountFailure := none
  exitCode : Nat := 0
  queries : List Label := []
  mounts : List MountCall := []
  launched : List Invocation := []
  log : List Log.Line := []

namespace Bench

/-- Attach a drive, in the place of one with the same label. -/
def attach (b : Bench) (l : Label) (device : String) (fsType : FilesystemType) : Bench :=
  { b with drives := (l, device, fsType) :: b.drives.filter (·.1 != l) }

/-- The drive with a label, unless every question about drives shall fail. -/
def drive (b : Bench) (l : Label) : Except RunError (Option (String × FilesystemType)) :=
  match b.probeError with
  | some text => .error (.probe l.text (.stated text))
  | none => .ok (b.drives.lookup l)

/-- The drive with a label, which must be attached. -/
def requireDrive (b : Bench) (l : Label) : Except RunError (String × FilesystemType) := do
  match ← b.drive l with
  | some d => return d
  | none => throw (.probe l.text .noSuchLabel)

/-- Note a line of the log. -/
def report (line : Log.Line) : StateM Bench Unit :=
  modify fun b => { b with log := b.log ++ [line] }

/-- Answer a question of a run. -/
def answer : (q : Run.Question) → StateM Bench q.Answer
  | .hasLabel l => do
    modify fun b => { b with queries := b.queries ++ [l] }
    return ((← get).drive l).map Option.isSome
  | .deviceFor l => do return ((← get).requireDrive l).map (·.1)
  | .filesystemType l => do return ((← get).requireDrive l).map (·.2)
  | .makeMountPoint path => do
    let b ← get
    let (result, tree) := b.tree.makeDirectories path
    set { b with tree }
    return result
  | .attemptMount device target options => do
    modify fun b => { b with mounts := b.mounts ++ [⟨device, target, options⟩] }
    match (← get).mountFailure with
    | some failure => return .refused failure
    | none => return .mounted
  | .readMountTable => return .ok ⟨[]⟩
  | .launch invocation => do
    modify fun b => { b with launched := b.launched ++ [invocation] }
    return .ok (← get).exitCode

/-- The result of steps of a run on a bench, and the bench after them. -/
def perform {α : Type} (b : Bench) (p : Run.Steps α) : α × Bench :=
  (p.run report answer).run b

end Bench

end ConfigDrive
