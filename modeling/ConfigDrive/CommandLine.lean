/-
# ConfigDrive.CommandLine — what the arguments of the program ask for.

Options come first, then a command, then what belongs to the command.  Everything after `early` or `run`
is forwarded as it is, except for a `--` that comes first.  Requests for help or the version are granted
as soon as they are met; what is wrong with the options before a command is only found out after the
command's own arguments have been read.  The value of `--config` is held back until it is known that the
option is complete.
-/
import ConfigDrive.Config.Load
import ConfigDrive.Log

namespace ConfigDrive.CommandLine

/-- A page of help: for the program or for one of its commands. -/
inductive Page
  | program
  | early
  | run
  | detect
  | help
  deriving DecidableEq, Repr

/-- What a run shall do. -/
inductive Command
  | early (forwarded : List String)
  | run (forwarded : List String)
  | detect
  deriving DecidableEq, Repr

/-- The options before the command. -/
structure Options where
  verbosity : Nat := 0
  quiet : Bool := false
  config : Option String := none
  deriving DecidableEq, Repr

/-- What the arguments ask for. -/
inductive Request
  | help (page : Page)
  | version
  | wrongUsage
  | perform (options : Options) (command : Command)
  deriving DecidableEq, Repr

/-! ## Options -/

/-- The option `--config` while it is read: it is not there, it waits for its value, or it has one that
has not been looked at. -/
inductive Pending
  | none
  | awaiting
  | value (path : String)
  deriving DecidableEq, Repr

/-- The options so far. -/
structure State where
  options : Options := {}
  pending : Pending := .none

/-- Why reading stops before the end of the arguments. -/
abbrev Stopped (α : Type) :=
  Except Request α

namespace Options

/-- Set the configuration file, which must be named and not yet be set. -/
def setConfig (o : Options) (path : String) : Stopped Options :=
  if path.isEmpty || o.config.isSome then .error .wrongUsage else .ok { o with config := some path }

/-- Set the switch for errors only, which must not yet be set. -/
def setQuiet (o : Options) : Stopped Options :=
  if o.quiet then .error .wrongUsage else .ok { o with quiet := true }

/-- The switches do not contradict each other. -/
def agree (o : Options) : Bool :=
  !(o.quiet && 0 < o.verbosity)

/-- The level at which the log is shown. -/
def level (o : Options) : Log.Level :=
  if o.quiet then .error
  else
    match o.verbosity with
    | 0 => .info
    | 1 => .debug
    | _ => .trace

end Options

namespace State

/-- The options once a held-back value has been looked at. -/
def settle (s : State) : Stopped Options :=
  match s.pending with
  | .none => .ok s.options
  | .awaiting => .error .wrongUsage
  | .value path => s.options.setConfig path

/-- Take a flag by its letter. -/
def flag (s : State) (c : Char) : Stopped State := do
  let o ← s.settle
  if c = 'v' then return { options := { o with verbosity := o.verbosity + 1 } }
  else if c = 'q' then return { options := ← o.setQuiet }
  else if c = 'h' then throw (.help .program)
  else if c = 'V' then throw .version
  else throw .wrongUsage

/-- Take an option by its long name, with the value that is attached to it, if any. -/
def longOption (s : State) (name : String) (value : Option String) : Stopped State := do
  match name, value with
  | "verbose", none => s.flag 'v'
  | "quiet", none => s.flag 'q'
  | "help", none => s.flag 'h'
  | "version", none => s.flag 'V'
  | "config", none => return { options := ← s.settle, pending := .awaiting }
  | "config", some path => return { options := ← (← s.settle).setConfig path }
  | _, _ => throw .wrongUsage

end State

/-! ## Arguments -/

/-- What an argument looks like. -/
inductive Shape
  | terminator
  | long (name : String) (value : Option String)
  | short (letters : List Char)
  | word
  deriving DecidableEq, Repr

/-- The shape of an argument.  A single dash is a word. -/
def shape (a : String) : Shape :=
  match a.toList with
  | ['-', '-'] => .terminator
  | '-' :: '-' :: cs =>
    let name := String.ofList (cs.takeWhile (· ≠ '='))
    match cs.dropWhile (· ≠ '=') with
    | _ :: value => .long name (some (String.ofList value))
    | [] => .long name none
  | '-' :: c :: cs => .short (c :: cs)
  | _ => .word

/-- The page of help for the names after the command `help`. -/
def helpRequest : List String → Request
  | [] => .help .program
  | ["early"] => .help .early
  | ["run"] => .help .run
  | ["detect"] => .help .detect
  | ["help"] => .help .help
  | _ => .wrongUsage

/-- The forwarded arguments after a command: all, but without a terminator that comes first. -/
def forwarded : List String → List String
  | "--" :: args => args
  | args => args

/-- Read the arguments of the command `detect`: there are none, but help may be asked for. -/
def detectArguments : List String → Stopped Unit
  | [] => .ok ()
  | a :: rest =>
    match shape a with
    | .terminator => if rest.isEmpty then .ok () else .error .wrongUsage
    | .long "help" none => .error (.help .detect)
    | .short ('h' :: _) => .error (.help .detect)
    | _ => .error .wrongUsage

/-- Check the options once the command is known. -/
def complete (s : State) (c : Command) : Stopped Request := do
  let o ← s.settle
  if o.agree then return .perform o c else throw .wrongUsage

/-- Read a command and what belongs to it. -/
def readCommand (s : State) (name : String) (args : List String) : Stopped Request :=
  match name with
  | "early" => complete s (.early (forwarded args))
  | "run" => complete s (.run (forwarded args))
  | "detect" => do
    detectArguments args
    complete s .detect
  | "help" => .ok (helpRequest args)
  | _ => .error .wrongUsage

/-- Read arguments up to the command and beyond. -/
def readArguments (s : State) : List String → Stopped Request
  | [] => .error .wrongUsage
  | a :: rest =>
    match shape a, s.pending with
    | .word, .awaiting => readArguments { s with pending := .value a } rest
    | .word, _ => readCommand s a rest
    | .long name value, _ => do readArguments (← s.longOption name value) rest
    | .short letters, _ => do readArguments (← letters.foldlM State.flag s) rest
    | .terminator, _ => .error .wrongUsage

/-- What the arguments of the program ask for. -/
def parse (args : List String) : Request :=
  match readArguments {} args with
  | .ok r => r
  | .error r => r

end ConfigDrive.CommandLine
