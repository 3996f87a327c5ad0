/-
# ConfigDrive.Log — what a run reports while it works.

A line has a level and a message.  How much is shown is a level too: a line is shown if it is at least
as severe.
-/

namespace ConfigDrive.Log

/-- How severe a line is. -/
inductive Level
  | error
  | warn
  | info
  | debug
  | trace
  deriving DecidableEq, Repr

/-- The levels in order, the most severe first. -/
def Level.rank : Level → Nat
  | .error => 0
  | .warn => 1
  | .info => 2
  | .debug => 3
  | .trace => 4

/-- The name of a level. -/
def Level.name : Level → String
  | .error => "ERROR"
  | .warn => "WARN"
  | .info => "INFO"
  | .debug => "DEBUG"
  | .trace => "TRACE"

/-- A line of the log. -/
structure Line where
  level : Level
  message : String
  deriving DecidableEq, Repr

namespace Line

/-- The written form of a line. -/
def text (l : Line) : String :=
  l.level.name ++ " " ++ l.message

/-- The line is shown at a level. -/
def isShown (threshold : Level) (l : Line) : Bool :=
  l.level.rank ≤ threshold.rank

/-- How a character is shown on a terminal: one that would steer the terminal is written by its number. -/
def terminalChar (c : Char) : List Char :=
  let n := c.toNat
  if [0x07, 0x08, 0x0C, 0x1B, 0x7F].contains n then
    ['\\', 'x', Nat.digitChar (n / 16), Nat.digitChar (n % 16)]
  else if 0x80 ≤ n && n ≤ 0x9F then ['\\', 'u', '\x7b'] ++ Nat.toDigits 16 n ++ ['\x7d']
  else [c]

/-- The line as a terminal shows it: empty lines inside the message are left out. -/
def terminalText (l : Line) : String :=
  let shown := String.ofList (l.text.toList.flatMap terminalChar)
  "\n".intercalate ((shown.splitOn "\n").filter (!·.isEmpty))

end Line

end ConfigDrive.Log
