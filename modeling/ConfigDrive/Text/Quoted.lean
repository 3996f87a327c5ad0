/-
# ConfigDrive.Text.Quoted — texts and lists of texts shown in double quotes.

Messages show a text between double quotes so that its end and every character of it can be told.
Quotes, backslashes and the usual control characters have an escape of their own, other unprintable
characters are written by their number.
-/
import ConfigDrive.Text.Unprintable

namespace ConfigDrive.Text

/-- How a character is written between double quotes. -/
def quotedChar (c : Char) : List Char :=
  if c = '\x00' then ['\\', '0']
  else if c = '\t' then ['\\', 't']
  else if c = '\r' then ['\\', 'r']
  else if c = '\n' then ['\\', 'n']
  else if c = '\\' then ['\\', '\\']
  else if c = '"' then ['\\', '"']
  else if isUnprintable c then ['\\', 'u', '\x7b'] ++ Nat.toDigits 16 c.toNat ++ ['\x7d']
  else [c]

/-- A text between double quotes. -/
def quoted (s : String) : String :=
  String.ofList ('"' :: s.toList.flatMap quotedChar ++ ['"'])

/-- A list of texts, each between double quotes. -/
def quotedList (ss : List String) : String :=
  "[" ++ ", ".intercalate (ss.map quoted) ++ "]"

end ConfigDrive.Text
