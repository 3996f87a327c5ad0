/-
# ConfigDrive.Handoff — what a run does last.

A run ends by starting another tool, or by doing nothing.  Which of the two, with which arguments and
in which way follows from the occasion of the run, from whether a drive is present, from the settings
and from the arguments to be forwarded; `plan` is that function, and it does not look at how the mount
went.
-/
import ConfigDrive.Config
import ConfigDrive.Drive.Detection

namespace ConfigDrive

/-- The occasion of a run: early boot, before network devices exist, or any time later. -/
inductive Variant
  | early
  | general
  deriving DecidableEq, Repr

/-- The name of an occasion. -/
def Variant.name : Variant → String
  | .early => "early"
  | .general => "general"

/-- How a program is started: in the place of this process, or as a child that is waited for. -/
inductive LaunchMode
  | replace
  | spawn
  deriving DecidableEq, Repr

/-- A complete command line.  The program is looked up when it is started. -/
structure Invocation where
  program : String
  args : List String
  mode : LaunchMode
  deriving DecidableEq, Repr

/-- The last action of a run. -/
inductive Handoff
  | delegate (invocation : Invocation)
  | skip
  deriving DecidableEq, Repr

namespace Handoff

/-- The flags that a drive adds: the tool shall take keys and host name from it, and early it shall
leave the network alone. -/
def driveFlags (variant : Variant) (found : Bool) : List String :=
  match variant, found with
  | _, false => []
  | .general, true => ["--ssh", "--hostname"]
  | .early, true => ["--ssh", "--hostname", "--skip-network"]

/-- How the tool is started on an occasion. -/
def mode : Variant → LaunchMode
  | .early => .replace
  | .general => .spawn

/-- The last action of a run.  The arguments are the flags for the drive, those of the settings, and the
forwarded ones; early and without a drive there is nothing to do. -/
def plan (variant : Variant) (detection : Drive.Detection) (downstream : Downstream)
    (forwarded : List String) : Handoff :=
  if variant = .early && !detection.isFound then .skip
  else
    .delegate
      { program := downstream.program
        args := driveFlags variant detection.isFound ++ downstream.installFlags ++ forwarded
        mode := mode variant }

/-- The plan does not depend on how the mount went, nor on which drive was found. -/
theorem plan_of_found (variant : Variant) (downstream : Downstream) (forwarded : List String)
    {a b : Drive.Location} {m n : Drive.MountOutcome} :
    plan variant (.found a m) downstream forwarded =
      plan variant (.found b n) downstream forwarded := by
  simp [plan, Drive.Detection.isFound]

end Handoff

end ConfigDrive
