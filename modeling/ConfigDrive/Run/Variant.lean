/-
# ConfigDrive.Run.Variant — a whole run.

A run on either occasion looks for the drive, plans the hand-off and carries it out.  `detect` is the
run that only looks: it reports what it found and mounts nothing.
-/
import ConfigDrive.Run.Locate
import ConfigDrive.Text.Quoted

namespace ConfigDrive.Run

open ConfigDrive.Drive (Detection Report)

/-- What is reported when a run begins to look for the drive. -/
def stageOpening (variant : Variant) (forwarded : List String) : String :=
  match variant with
  | .early => "Early stage: looking for config drive"
  | .general => "General stage: target " ++ Text.quotedList forwarded

/-- What is reported when there is no drive. -/
def stageWithoutDrive : Variant → String
  | .early => "Early stage: no config drive, leaving configuration to later runs"
  | .general => "General stage: no config drive, downstream tool falls back on its own"

/-- Look for the drive, mount it and plan the hand-off. -/
def planVariant (variant : Variant) (config : Config) (forwarded : List String) : RunM Handoff := do
  say .info (stageOpening variant forwarded)
  let detection ← locate config.mountPoint
  if !detection.isFound then say .info (stageWithoutDrive variant)
  return Handoff.plan variant detection config.downstream forwarded

/-- Carry out a hand-off.  The result is the exit status to pass on. -/
def execute : Handoff → RunM Nat
  | .skip => do
    say .info "No config drive, nothing to hand off"
    return 0
  | .delegate invocation => do
    say .info ("Handing off to " ++ invocation.program ++ " " ++ Text.quotedList invocation.args)
    launch invocation

/-- A run from its beginning to its end.  The result is the exit status to pass on. -/
def runVariant (variant : Variant) (config : Config) (forwarded : List String) : RunM Nat := do
  say .info ("Starting " ++ variant.name ++ " run")
  execute (← planVariant variant config forwarded)

/-- Look for the drive and mount nothing. -/
def detect (config : Config) : RunM Report := do
  return ⟨← probe, config.mountPoint⟩

end ConfigDrive.Run
