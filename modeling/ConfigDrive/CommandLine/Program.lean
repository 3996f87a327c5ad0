/-
# ConfigDrive.CommandLine.Program — the whole program.

The program reads its arguments, reads the settings, and performs the command.  It ends with the exit
status of the run; with 1 if the run was given up, with 2 if the arguments were wrong, and with 0 after
help.  `Program.onMachine` is the program as a function on machines.
-/
import ConfigDrive.CommandLine.Help
import ConfigDrive.Machine
import ConfigDrive.Run.Variant
import ConfigDrive.Utilities

namespace ConfigDrive.CommandLine

/-- What a command has done: the exit status and the text it prints. -/
structure Outcome where
  status : Nat
  output : String
  deriving DecidableEq, Repr

/-- Perform a command with settings. -/
def Command.perform (config : Config) : Command → Run.RunM Outcome
  | .early args => return ⟨← Run.runVariant .early config args, ""⟩
  | .run args => return ⟨← Run.runVariant .general config args, ""⟩
  | .detect => do
    let report ← Run.detect config
    let found := if report.location.isSome then "true" else "false"
    Run.say .info ("Config drive found: " ++ found)
    return ⟨0, report.pretty ++ "\n"⟩

/-- Where the settings are read. -/
def Options.loader (o : Options) : Config.Loader :=
  match o.config with
  | some path => { path }
  | none => {}

/-- Read the settings and perform a command. -/
def perform (o : Options) (c : Command) : Host.Steps (Except RunError Outcome) := do
  match ← (o.loader.load).run with
  | .error e => return .error e
  | .ok config => (Utilities.ofConfig config).perform (c.perform config)

/-- How the program ended: its status, what it printed, what the last tool wrote beside the log, the
error that ended it, and the log that was shown. -/
structure Ending where
  status : WaitStatus
  stdout : List UInt8 := []
  stderr : List UInt8 := []
  error : Option RunError := none
  shown : List Log.Line := []

/-- The end after a text was printed. -/
def Ending.printed (text : String) : Ending :=
  { status := .exited 0, stdout := Text.Utf8.encode text.toList }

/-- The end of a performed command on a machine.  A program that replaced this one ends in its stead. -/
def endingOf (o : Options) (result : Except Completion (Except RunError Outcome)) (m : Machine) :
    Ending :=
  let ending : Ending :=
    { status := .exited 1
      stdout := m.stdout
      stderr := m.stderr
      shown := m.log.filter (·.isShown o.level) }
  match result with
  | .error completion => { ending with status := completion.status }
  | .ok (.error e) => { ending with error := some e }
  | .ok (.ok outcome) =>
    { ending with
      status := .exited outcome.status
      stdout := m.stdout ++ Text.Utf8.encode outcome.output.toList }

/-- The program on a machine, and the machine after it. -/
def onMachine (args : List String) (m : Machine) : Ending × Machine :=
  match parse args with
  | .help page => (.printed page.text, m)
  | .version => (.printed versionText, m)
  | .wrongUsage => ({ status := .exited 2 }, m)
  | .perform o c =>
    let (result, after) := m.perform (perform o c)
    (endingOf o result after, after)

end ConfigDrive.CommandLine
