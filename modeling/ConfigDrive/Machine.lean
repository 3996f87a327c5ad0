/-
# ConfigDrive.Machine — a system in memory.

A machine has a tree of files and runs the programs in it.  It notes which stand-ins were started, what
was reported and what programs wrote to the standard streams.  Every question to the system has an answer
here, so a whole run is a function from machines to machines.  A process that is replaced ends at once,
with the end of the program that took its place.
-/
import ConfigDrive.Execution

namespace ConfigDrive

/-- A stand-in that was started: under which path, with which value of `PATH`, and with which
arguments. -/
abbrev Call :=
  Host.Command

/-- A system in memory, with notes on what happened, in order. -/
structure Machine where
  tree : FileTree
  calls : List Call := []
  log : List Log.Line := []
  stdout : List UInt8 := []
  stderr : List UInt8 := []

/-- An action of the running process.  It is cut short by the end of a program that replaces it. -/
abbrev MachineM (α : Type) :=
  ExceptT Completion (StateM Machine) α

namespace Machine

/-- Note a line of the log. -/
def report (line : Log.Line) : MachineM Unit :=
  modify fun m => { m with log := m.log ++ [line] }

/-- Note what runs, if it is a stand-in. -/
def note (c : Host.Command) : Image → MachineM Unit
  | .standIn path args _ =>
    modify fun m => { m with calls := m.calls ++ [{ c with program := path, args }] }
  | .shell _ => return ()

/-- Start a program, note it, and let it run to its end. -/
def start (replacing : Bool) (c : Host.Command) : MachineM (Except SystemError Completion) := do
  match Execution.image? (← get).tree replacing c with
  | .error e => return .error e
  | .ok image =>
    note c image
    return .ok image.completion

/-- Start a program that writes to the standard streams of the machine. -/
def startSharing (replacing : Bool) (c : Host.Command) :
    MachineM (Except SystemError Completion) := do
  match ← start replacing c with
  | .error e => return .error e
  | .ok completion =>
    modify fun m =>
      { m with stdout := m.stdout ++ completion.stdout, stderr := m.stderr ++ completion.stderr }
    return .ok completion

/-- Make directories in the tree. -/
def makeDirectories (path : String) : MachineM (Except SystemError Unit) := do
  let m ← get
  let (result, tree) := m.tree.makeDirectories path
  set { m with tree }
  return result

/-- Answer a question to the system. -/
def answer : (q : Host.Question) → MachineM q.Answer
  | .readText path => do return (← get).tree.readText path
  | .listDirectory path => do return (← get).tree.listDirectory path
  | .makeDirectories path => makeDirectories path
  | .isExecutable path => do return (← get).tree.isExecutable path
  | .collect c => start false c
  | .spawn c => do return (← startSharing false c).map (·.status)
  | .replace c => do
    match ← startSharing true c with
    | .error e => return e
    | .ok completion => throw completion

/-- The result of a procedure on a machine, and the machine after it.  An error is the end of a program
that replaced the process. -/
def perform {α : Type} (m : Machine) (p : Host.Steps α) : Except Completion α × Machine :=
  (p.run report answer).run.run m

end Machine

end ConfigDrive
