/-
# ConfigDrive.Script — the first line of a script.

An executable file that begins with a hash and an exclamation mark is a script: the rest of its first
line is the path of the program that interprets it and, set off by blanks, at most one argument for that
program.  The system looks only at the head of a file.  A line that goes on after the head may lose a
part of its argument, but its path must be complete.
-/
import ConfigDrive.Text.Utf8

namespace ConfigDrive

/-- The program that interprets a script, and the argument that the script has for it. -/
structure Interpreter where
  path : String
  argument : Option String
  deriving DecidableEq, Repr

namespace Script

/-- The number of bytes in the head of a file. -/
def headLimit : Nat :=
  256

/-- The byte is a space or a tab. -/
def isBlank (b : UInt8) : Bool :=
  b == 0x20 || b == 0x09

/-- The byte ends a path: it is a blank or a NUL. -/
def endsPath (b : UInt8) : Bool :=
  isBlank b || b == 0

/-- The line at the start of what follows the first two bytes.  The last byte of a full head does not
count if the line has no end before it. -/
def line? (rest : List UInt8) : Option (List UInt8) :=
  if (rest.takeWhile (· != 0)).contains 0x0A then some (rest.takeWhile (· != 0x0A))
  else if (rest.dropWhile isBlank).any endsPath then some (rest.take (headLimit - 3))
  else none

/-- The argument in what follows the path on a line. -/
def argumentOf : List UInt8 → Option String
  | [] => none
  | b :: rest =>
    if b == 0 then none else some (Text.Utf8.text ((rest.dropWhile isBlank).takeWhile (· != 0)))

/-- The path that a line begins with.  An empty one leads to the working directory. -/
def pathOf (words : List UInt8) : String :=
  match words.takeWhile (!endsPath ·) with
  | [] => "."
  | bytes => Text.Utf8.text bytes

/-- The interpreter that a line names; blanks around it do not count. -/
def ofLine? (line : List UInt8) : Option Interpreter :=
  match (line.reverse.dropWhile isBlank).reverse.dropWhile isBlank with
  | [] => none
  | words =>
    some { path := pathOf words, argument := argumentOf (words.dropWhile (!endsPath ·)) }

/-- The interpreter that a file names.  A file that ends within its head is as good as followed by a
NUL. -/
def interpreter? (bytes : List UInt8) : Option Interpreter :=
  match (bytes ++ [0]).take headLimit with
  | 0x23 :: 0x21 :: rest => (line? rest).bind ofLine?
  | _ => none

end Script

end ConfigDrive
