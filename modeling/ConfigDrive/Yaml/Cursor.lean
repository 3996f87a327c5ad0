/-
# ConfigDrive.Yaml.Cursor — a place in YAML text.

Reading begins with `readable?`, which refuses text with control characters and turns every line break
that is written as such into a line feed; the two Unicode separators stay, because texts keep them.
A `Position` is a line and the part of it that has been passed, counted in characters, which tell the
indentation, and in bytes, which bound the length of a key.  A `Cursor` is what is left of a text
together with the position where it begins.
-/
import ConfigDrive.Yaml.ReadError

namespace ConfigDrive.Yaml

/-! ## Characters -/

/-- YAML text may hold this character. -/
def isReadable (c : Char) : Bool :=
  let n := c.toNat
  n == 0x09 || n == 0x0A || n == 0x0D || (0x20 ≤ n && n ≤ 0x7E) || n == 0x85 ||
  (0xA0 ≤ n && n ≤ 0xD7FF) || (0xE000 ≤ n && n ≤ 0xFFFD) || 0x10000 ≤ n

/-- A line break, once the text has been made readable. -/
def isBreak (c : Char) : Bool :=
  c == '\n' || c == '\u2028' || c == '\u2029'

/-- A space or a tab. -/
def isSpaceOrTab (c : Char) : Bool :=
  c == ' ' || c == '\t'

/-- The text is at its end, at a line break, a space or a tab. -/
def atGap : List Char → Bool
  | [] => true
  | c :: _ => isSpaceOrTab c || isBreak c

/-- A character of an anchor, of a directive's name or of a tag's handle. -/
def isWordChar (c : Char) : Bool :=
  c.isAlphanum || c == '_' || c == '-'

/-- Turn carriage returns, with or without a line feed after them, and next-line characters into line
feeds. -/
def normalizeBreaks : List Char → List Char
  | [] => []
  | '\r' :: '\n' :: rest => '\n' :: normalizeBreaks rest
  | c :: rest => (if c == '\r' || c == '\u0085' then '\n' else c) :: normalizeBreaks rest

/-- The text with its line breaks made uniform, if YAML text may hold all its characters. -/
def readable? (text : List Char) : Except ReadError (List Char) :=
  if text.all isReadable then .ok (normalizeBreaks text) else .error .controlCharacter

/-! ## Positions -/

/-- A place in a text: its line, and how many characters and bytes of that line lie before it. -/
structure Position where
  line : Nat
  column : Nat
  bytes : Nat
  deriving DecidableEq, Repr

namespace Position

/-- The beginning of a text. -/
def start : Position :=
  ⟨0, 0, 0⟩

/-- The place after a character of the same line. -/
def next (p : Position) (c : Char) : Position :=
  ⟨p.line, p.column + 1, p.bytes + c.utf8Size⟩

/-- The beginning of the next line. -/
def nextLine (p : Position) : Position :=
  ⟨p.line + 1, 0, 0⟩

end Position

/-! ## Cursors -/

/-- What is left of a text, and where it begins. -/
structure Cursor where
  rest : List Char
  position : Position
  deriving Repr

namespace Cursor

/-- The beginning of a text. -/
def start (text : List Char) : Cursor :=
  ⟨text, Position.start⟩

/-- Go past `n` characters of the same line. -/
def skip (c : Cursor) (n : Nat) : Cursor :=
  ⟨c.rest.drop n, (c.rest.take n).foldl Position.next c.position⟩

/-- The characters of this line up to the first that does not satisfy `p`, and the place of that one. -/
def takeWhile (c : Cursor) (p : Char → Bool) : List Char × Cursor :=
  let taken := c.rest.takeWhile p
  (taken, c.skip taken.length)

/-- Go past spaces and tabs. -/
def skipSpaces (c : Cursor) : Cursor :=
  (c.takeWhile isSpaceOrTab).2

/-- Go past a comment, if one begins here, to the end of the line. -/
def skipComment (c : Cursor) : Cursor :=
  match c.rest with
  | '#' :: _ => (c.takeWhile (!isBreak ·)).2
  | _ => c

/-- Go past the end of a line that holds nothing more than spaces and a comment. -/
def endLine? (c : Cursor) : Option Cursor :=
  let c := c.skipSpaces.skipComment
  match c.rest with
  | [] => some c
  | b :: rest => if isBreak b then some ⟨rest, c.position.nextLine⟩ else none

end Cursor

/-- A document marker, three of these characters set off from what follows, stands here. -/
def isMarker (mark : Char) : List Char → Bool
  | a :: b :: c :: rest => a == mark && b == mark && c == mark && atGap rest
  | _ => false

/-- A line begins here, with a marker that starts or ends a document. -/
def atMarker (column : Nat) (text : List Char) : Bool :=
  column == 0 && (isMarker '-' text || isMarker '.' text)

/-- Go past spaces, comments and line breaks to the next token.  The Boolean tells whether a simple key
may begin there: in block context a new line allows one.  A tab is passed over only where it cannot be
taken for indentation, and a byte-order mark only at the beginning of a line. -/
def skipToToken (inFlow : Bool) (comment keyAllowed : Bool) (p : Position) :
    List Char → Bool × Cursor
  | [] => (keyAllowed, ⟨[], p⟩)
  | c :: rest =>
    if isBreak c then skipToToken inFlow false (keyAllowed || !inFlow) p.nextLine rest
    else if comment || c == '#' then skipToToken inFlow true keyAllowed (p.next c) rest
    else if c == ' ' || (c == '\t' && (inFlow || !keyAllowed)) || (c == '\uFEFF' && p.column == 0) then
      skipToToken inFlow false keyAllowed (p.next c) rest
    else (keyAllowed, ⟨c :: rest, p⟩)

end ConfigDrive.Yaml
