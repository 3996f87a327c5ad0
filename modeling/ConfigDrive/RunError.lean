/-
# ConfigDrive.RunError — why a run is given up.

Every error here ends the run.  A failed mount is none of them, because a run goes on without it.  An
error is a cause; `RunError.message` is the one place where it becomes text.
-/
import ConfigDrive.Config.Fault
import ConfigDrive.SearchPath
import ConfigDrive.SystemError

namespace ConfigDrive

/-- What is wrong with the configuration of a run. -/
inductive ConfigProblem
  /-- A file is not YAML. -/
  | unparsable (path : String)
  /-- The settings that all files give together are refused. -/
  | invalid (cause : Config.Cause)
  | stated (text : String)
  deriving DecidableEq, Repr

/-- Why a question about a label could not be answered. -/
inductive ProbeProblem
  /-- The probe utility could not be started. -/
  | notStarted (e : SystemError)
  /-- The probe utility ended with a code that is no answer, or by a signal. -/
  | badStatus (args : List String) (code : Option Nat)
  | noDevice
  | noSuchLabel
  | stated (text : String)
  deriving DecidableEq, Repr

/-- Why a program could not be started. -/
inductive LaunchProblem
  | notStarted (e : SystemError)
  | stated (text : String)
  deriving DecidableEq, Repr

/-- Why a run is given up. -/
inductive RunError
  | config (problem : ConfigProblem)
  | io (e : SystemError)
  | yaml (fault : Config.Fault)
  | probe (label : String) (problem : ProbeProblem)
  | mountPoint (path : String) (e : SystemError)
  | programNotFound (program : String) (searchPath : SearchPath)
  | launch (program : String) (problem : LaunchProblem)
  deriving DecidableEq, Repr

/-- The words for a problem with the configuration. -/
def ConfigProblem.message : ConfigProblem → String
  | .unparsable path => "failed to parse " ++ path
  | .invalid cause => "invalid configuration: " ++ cause.message
  | .stated text => text

/-- The words for a problem with a question about a label. -/
def ProbeProblem.message : ProbeProblem → String
  | .notStarted e => e.message
  | .badStatus args code =>
    let status :=
      match code with
      | some c => "status " ++ toString c
      | none => "a signal"
    "blkid " ++ " ".intercalate args ++ " exited with " ++ status
  | .noDevice => "blkid printed no device"
  | .noSuchLabel => "no such label"
  | .stated text => text

/-- The words for a problem with starting a program. -/
def LaunchProblem.message : LaunchProblem → String
  | .notStarted e => e.message
  | .stated text => text

namespace RunError

/-- The text of an error. -/
def message : RunError → String
  | .config problem => "Configuration error: " ++ problem.message
  | .io e => "IO error: " ++ e.message
  | .yaml fault => "YAML parsing error: " ++ fault.message
  | .probe label problem =>
    "Block device probe for label '" ++ label ++ "' failed: " ++ problem.message
  | .mountPoint path e => "Failed to create mount point " ++ path ++ ": " ++ e.message
  | .programNotFound program searchPath =>
    "Program '" ++ program ++ "' not found in search path " ++ searchPath.envValue
  | .launch program problem => "Failed to launch '" ++ program ++ "': " ++ problem.message

end RunError

end ConfigDrive
