/-
# ConfigDrive.Text.Json — texts as JSON strings.

Quotes, backslashes and control characters below U+0020 are escaped, some of them by a letter; all else
stands for itself.
-/

namespace ConfigDrive.Text.Json

/-- How a character is written in a JSON string. -/
def stringChar (c : Char) : List Char :=
  if c = '"' then ['\\', '"']
  else if c = '\\' then ['\\', '\\']
  else if c = '\n' then ['\\', 'n']
  else if c = '\r' then ['\\', 'r']
  else if c = '\t' then ['\\', 't']
  else if c = '\x08' then ['\\', 'b']
  else if c = '\x0C' then ['\\', 'f']
  else if c.toNat < 0x20 then
    ['\\', 'u', '0', '0', Nat.digitChar (c.toNat / 16), Nat.digitChar (c.toNat % 16)]
  else [c]

/-- A text as a JSON string. -/
def quoted (s : String) : String :=
  String.ofList ('"' :: s.toList.flatMap stringChar ++ ['"'])

end ConfigDrive.Text.Json
