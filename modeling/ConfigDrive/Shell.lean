/-
# ConfigDrive.Shell — files of commands.

The shell runs the files that are in no format of their own.  Each line holds one command, made of words
that blanks set off; a word that begins with a hash begins a comment, and words in front may set
variables.  This shell knows the commands that need no other program, and to every other name it answers
that there is no such command.
-/
import ConfigDrive.Text.Pieces
import ConfigDrive.Text.Utf8
import ConfigDrive.WaitStatus

namespace ConfigDrive.Shell

/-- Where a system keeps its shell. -/
def path : String :=
  "/bin/sh"

/-- The end of something that exits and has written nothing. -/
def quiet (code : Nat) : Completion :=
  { status := .exited code, stdout := [], stderr := [] }

/-- The end of something that exits with a complaint. -/
def complaint (code : Nat) (text : String) : Completion :=
  { status := .exited code, stdout := [], stderr := Text.Utf8.encode (text ++ "\n").toList }

/-- The end of the first and then the second, together. -/
def following (first second : Completion) : Completion :=
  { status := second.status
    stdout := first.stdout ++ second.stdout
    stderr := first.stderr ++ second.stderr }

/-- A character that may stand in the name of a variable. -/
def isNameChar (c : Char) : Bool :=
  c.isAlphanum || c == '_'

/-- The word gives a variable a value. -/
def isAssignment (word : List Char) : Bool :=
  let name := word.takeWhile isNameChar
  (name.head?.any fun c => !c.isDigit) && (word.drop name.length).head? == some '='

/-- The words of a command on a line, which begin after those that set variables. -/
def wordsOf (line : List Char) : List String :=
  let pieces := Text.pieces ' ' (line.map fun c => if c = '\t' then ' ' else c)
  let words := (pieces.filter (!·.isEmpty)).takeWhile (·.head? != some '#')
  (words.dropWhile isAssignment).map String.ofList

/-- The number that a word of digits writes. -/
def number? (word : String) : Option Nat :=
  if word.toList.all Char.isDigit then word.toNat? else none

/-- The end of the shell at a command to exit, after a command that ended with some code. -/
def exit (place : String) (last : Nat) : List String → Completion
  | [] => quiet last
  | word :: _ =>
    match number? word with
    | some code => quiet (code % 0x100)
    | none => complaint 2 (place ++ "exit: Illegal number: " ++ word)

/-- The end of any other command. -/
def command (place name : String) (args : List String) : Completion :=
  match name with
  | ":" => quiet 0
  | "true" => quiet 0
  | "false" => quiet 1
  | "echo" => { quiet 0 with stdout := Text.Utf8.encode (" ".intercalate args ++ "\n").toList }
  | _ => complaint 127 (place ++ name ++ ": not found")

/-- The end of the shell after the lines from one with this number on. -/
def runLines (script : String) : Nat → Nat → List (List Char) → Completion
  | _, last, [] => quiet last
  | number, last, line :: rest =>
    let place := script ++ ": " ++ toString number ++ ": "
    match wordsOf line with
    | [] => runLines script (number + 1) last rest
    | "exit" :: args => exit place last args
    | name :: args =>
      let completion := command place name args
      following completion (runLines script (number + 1) completion.status.exitCode rest)

/-- The end of the shell after the commands in a file, in which a NUL counts for nothing. -/
def run (script : String) (bytes : List UInt8) : Completion :=
  runLines script 1 0 (Text.pieces '\n' (Text.Utf8.text (bytes.filter (· != 0))).toList)

/-- A file without commands does nothing, and that succeeds. -/
theorem runLines_of_no_words {script : String} {number last : Nat} {lines : List (List Char)}
    (h : ∀ line ∈ lines, wordsOf line = []) : runLines script number last lines = quiet last := by
  induction lines generalizing number with
  | nil => rfl
  | cons line rest ih =>
    simp only [runLines, h line (by simp)]
    exact ih fun l hl => h l (by simp [hl])

end ConfigDrive.Shell
