/-
# ConfigDrive.Main — the program on this system.

Questions about files are answered by the file system.  Programs are never started from here: every
command is refused as not permitted, and a run reports that like any other failure.
-/
import ConfigDrive.CommandLine.Program

namespace ConfigDrive.Main

/-! ## Errors -/

/-- The number of a failed system call, as far as it is known. -/
def codeOf : IO.Error → UInt32
  | .noFileOrDirectory _ code _ => code
  | .inappropriateType _ code _ => code
  | .permissionDenied _ code _ => code
  | .alreadyExists _ code _ => code
  | .invalidArgument _ code _ => code
  | .resourceExhausted _ code _ => code
  | .noSuchThing _ code _ => code
  | .otherError code _ => code
  | _ => 1

/-- The cause of a failed action. -/
def causeOf (e : IO.Error) : SystemError :=
  .errno ⟨(codeOf e).toNat⟩

/-- Do something with a path; a failure is an answer too. -/
def attempt {α : Type} (path : String) (action : IO α) : IO (Except SystemError α) :=
  if Execution.hasNul path then return .error .nulInPath
  else
    try return .ok (← action)
    catch e => return .error (causeOf e)

/-! ## Answers -/

/-- Read a file as text. -/
def readText (path : String) : IO (Except SystemError String) := do
  match ← attempt path (IO.FS.readBinFile path) with
  | .error e => return .error e
  | .ok bytes =>
    match Text.Utf8.decode? bytes.toList with
    | some s => return .ok (String.ofList s)
    | none => return .error .notUtf8

/-- The names in a directory. -/
def listDirectory (path : String) : IO (Except SystemError (List String)) :=
  attempt path do
    let entries ← ((← IO.currentDir) / path).readDir
    return entries.toList.map (·.fileName)

/-- The path leads to a file. -/
def isFile (path : String) : IO Bool := do
  match ← attempt path (do ((← IO.currentDir) / path).metadata) with
  | .ok m => return m.type == .file
  | .error _ => return false

/-- Answer a question to the system. -/
def answer : (q : Host.Question) → IO q.Answer
  | .readText path => readText path
  | .listDirectory path => listDirectory path
  | .makeDirectories path => attempt path (IO.FS.createDirAll path)
  | .isExecutable path => isFile path
  | .collect _ => return .error (.errno .notPermitted)
  | .spawn _ => return .error (.errno .notPermitted)
  | .replace _ => return .errno .notPermitted

/-- Show a line of the log, if it is severe enough. -/
def report (level : Log.Level) (line : Log.Line) : IO Unit :=
  if line.isShown level then IO.eprintln line.terminalText else return ()

/-- Perform a command.  The result is the exit status. -/
def perform (o : CommandLine.Options) (c : CommandLine.Command) : IO UInt32 := do
  match ← (CommandLine.perform o c).run (report o.level) answer with
  | .ok outcome =>
    IO.print outcome.output
    return UInt32.ofNat outcome.status
  | .error e =>
    IO.eprintln ("Error: " ++ e.message)
    return 1

/-- Do what the arguments ask for.  The result is the exit status. -/
def runProgram (args : List String) : IO UInt32 := do
  match CommandLine.parse args with
  | .help page =>
    IO.print page.text
    return 0
  | .version =>
    IO.print CommandLine.versionText
    return 0
  | .wrongUsage =>
    IO.eprint CommandLine.Page.program.text
    return 2
  | .perform o c => perform o c

end ConfigDrive.Main

/-- The program. -/
def main (args : List String) : IO UInt32 :=
  ConfigDrive.Main.runProgram args
