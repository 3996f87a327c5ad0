/-
# ConfigDrive.Text.Octal — octal escapes in mount tables.

The kernel separates the fields of a mount table by blanks, so it writes a blank or a backslash inside
a field as a backslash and three octal digits.  `unescape` reads such a field: an escape with a value
of at most 0377 is one byte, any other backslash stands for itself, and the bytes are then read as
UTF-8, broken sequences becoming U+FFFD.
-/
import ConfigDrive.Text.Utf8

namespace ConfigDrive.Text.Octal

/-- The value of an octal digit. -/
def digit? (b : UInt8) : Option Nat :=
  if 0x30 ≤ b.toNat && b.toNat ≤ 0x37 then some (b.toNat - 0x30) else none

/-- The byte that three octal digits write, if they are digits and the value fits into a byte. -/
def byte? (a b c : UInt8) : Option UInt8 := do
  let value := (← digit? a) * 64 + (← digit? b) * 8 + (← digit? c)
  if value < 256 then some (UInt8.ofNat value) else none

/-- Replace each escape by its byte, from left to right. -/
def unescapeBytes : List UInt8 → List UInt8
  | [] => []
  | 0x5C :: a :: b :: c :: rest =>
    match byte? a b c with
    | some v => v :: unescapeBytes rest
    | none => 0x5C :: unescapeBytes (a :: b :: c :: rest)
  | b :: rest => b :: unescapeBytes rest

/-- The text that a field of a mount table stands for. -/
def unescape (field : List Char) : List Char :=
  Utf8.decodeLossy (unescapeBytes (Utf8.encode field))

/-- The octal digit of a value below eight. -/
def digit (n : Nat) : UInt8 :=
  UInt8.ofNat (0x30 + n)

/-- A byte written as a backslash and three octal digits. -/
def escapeByte (b : UInt8) : List UInt8 :=
  [0x5C, digit (b.toNat / 64), digit (b.toNat / 8 % 8), digit (b.toNat % 8)]

/-- Reading an escape gives the byte it was written for. -/
theorem byte?_escape (b : UInt8) :
    byte? (digit (b.toNat / 64)) (digit (b.toNat / 8 % 8)) (digit (b.toNat % 8)) = some b := by
  have key : ∀ n : Fin 256,
      byte? (digit (n.val / 64)) (digit (n.val / 8 % 8)) (digit (n.val % 8)) =
        some (UInt8.ofNat n.val) := by
    decide +kernel
  simpa using key ⟨b.toNat, b.toNat_lt⟩

/-- An escape followed by any bytes is read as its byte followed by what they stand for. -/
theorem unescapeBytes_escapeByte (b : UInt8) (rest : List UInt8) :
    unescapeBytes (escapeByte b ++ rest) = b :: unescapeBytes rest := by
  simp [escapeByte, unescapeBytes, byte?_escape]

end ConfigDrive.Text.Octal
