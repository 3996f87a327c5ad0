/-
# ConfigDrive.Yaml.Token — the tokens of YAML text.

A token is a mark, a name or a scalar; three of them, the starts and the end of block collections, are
written by indentation alone.  This module holds their type and reads the names among them: anchors,
tags and directives.  Each reader begins at the character that announces its token and returns the
place after it.
-/
import ConfigDrive.Text.Utf8
import ConfigDrive.Yaml.Scalar

namespace ConfigDrive.Yaml

/-- The bytes of a tag, or of a part of one.  Percent escapes may write bytes that are no characters. -/
abbrev TagText :=
  List UInt8

/-- A token of YAML text.  The handle of a tag is empty where the suffix is the whole tag. -/
inductive Token
  | versionDirective (major minor : Nat)
  | tagDirective (handle : String) (start : TagText)
  | documentStart
  | documentEnd
  | blockSequenceStart
  | blockMappingStart
  | blockEnd
  | flowSequenceStart
  | flowSequenceEnd
  | flowMappingStart
  | flowMappingEnd
  | blockEntry
  | flowEntry
  | key
  | value
  | reference (name : String)
  | anchor (name : String)
  | tag (handle : String) (suffix : TagText)
  | scalar (style : ScalarStyle) (text : String)
  | streamEnd
  deriving DecidableEq, Repr

namespace Token

/-! ## Anchors and aliases -/

/-- What may follow the name of an anchor or alias. -/
def endsName : List Char → Bool
  | [] => true
  | c :: rest => atGap (c :: rest) || ['?', ':', ',', ']', '}', '%', '@', '\x60'].contains c

/-- The name after the mark of an anchor or alias. -/
def readName (c : Cursor) : Except ReadError (String × Cursor) :=
  let (name, after) := (c.skip 1).takeWhile isWordChar
  if name.isEmpty || !endsName after.rest then .error .badAnchor
  else .ok (String.ofList name, after)

/-! ## Tags -/

/-- A character of a tag; the marks of flow sequences and entries count only inside `<` and `>`. -/
def isTagChar (verbatim : Bool) (c : Char) : Bool :=
  isWordChar c || [';', '/', '?', ':', '@', '&', '=', '+', '$', '.', '%', '!', '~', '*', '\x27', '(',
    ')'].contains c || (verbatim && [',', '[', ']'].contains c)

/-- How many bytes of an escaped character follow this one, which begins it. -/
def escapedTail? (byte : Nat) : Option Nat :=
  if byte < 0x80 then some 0
  else if byte < 0xC0 then none
  else if byte < 0xE0 then some 1
  else if byte < 0xF0 then some 2
  else if byte < 0xF8 then some 3
  else none

/-- The bytes that a text with percent escapes stands for, when `missing` more bytes of an escaped
character have to follow.  An escaped character is checked for its length only. -/
def percentDecode? : Nat → List Char → Option (List UInt8)
  | missing, [] => if missing = 0 then some [] else none
  | missing, '%' :: a :: b :: rest => do
    let byte := (← hexDigit? a) * 16 + (← hexDigit? b)
    let missing ←
      match missing with
      | 0 => escapedTail? byte
      | n + 1 => if 0x80 ≤ byte && byte < 0xC0 then some n else none
    return UInt8.ofNat byte :: (← percentDecode? missing rest)
  | missing, c :: rest =>
    if c == '%' || missing != 0 then none
    else (String.utf8EncodeChar c ++ ·) <$> percentDecode? 0 rest

/-- The bytes of the tag characters that begin here. -/
def readTagText (verbatim : Bool) (c : Cursor) : Except ReadError (TagText × Cursor) :=
  let (written, after) := c.takeWhile (isTagChar verbatim)
  match percentDecode? 0 written with
  | some text => .ok (text, after)
  | none => .error .badTag

/-- A tag ends before a zero byte. -/
def untilZero (text : TagText) : TagText :=
  text.takeWhile (· != 0)

/-- The handle that begins here: a mark, a word, and the closing mark if there is one. -/
def readHandle (c : Cursor) : List Char × Cursor :=
  let (word, after) := (c.skip 1).takeWhile isWordChar
  match after.rest with
  | '!' :: _ => ('!' :: word ++ ['!'], after.skip 1)
  | _ => ('!' :: word, after)

/-- The handle has a mark at both ends, so a suffix follows it. -/
def isClosedHandle (handle : List Char) : Bool :=
  1 < handle.length && handle.getLast? == some '!'

/-- Read a tag: verbatim between `<` and `>`, with a handle, or local.  A lone mark is a tag itself. -/
def readTag (c : Cursor) : Except ReadError (Token × Cursor) := do
  match c.rest with
  | '!' :: '<' :: _ =>
    let (text, after) ← readTagText true (c.skip 2)
    match text, after.rest with
    | _ :: _, '>' :: _ => return (.tag "" (untilZero text), after.skip 1)
    | _, _ => .error .badTag
  | _ =>
    let (handle, afterHandle) := readHandle c
    let (text, after) ← readTagText false afterHandle
    if isClosedHandle handle then
      if text.isEmpty then .error .badTag
      else return (.tag (String.ofList handle) (untilZero text), after)
    else
      match untilZero (Text.Utf8.encode (handle.drop 1) ++ text) with
      | [] => return (.tag "" (Text.Utf8.encode ['!']), after)
      | suffix => return (.tag "!" suffix, after)

/-- Read a tag and check what follows it: a gap, or the end of an entry in a flow collection. -/
def readSeparateTag (inFlow : Bool) (c : Cursor) : Except ReadError (Token × Cursor) := do
  let (token, after) ← readTag c
  if atGap after.rest || (inFlow && after.rest.head? == some ',') then return (token, after)
  else .error .badTag

/-! ## Directives -/

/-- A number in a version: one to nine digits. -/
def readVersionNumber (c : Cursor) : Except ReadError (Nat × Cursor) :=
  let (digits, after) := c.takeWhile Char.isDigit
  if digits.isEmpty || 9 < digits.length then .error .badDirective
  else .ok (digits.foldl (fun n d => n * 10 + (d.toNat - 48)) 0, after)

/-- The version after the name of its directive. -/
def readVersion (c : Cursor) : Except ReadError (Token × Cursor) := do
  let (major, after) ← readVersionNumber c.skipSpaces
  match after.rest with
  | '.' :: _ =>
    let (minor, after) ← readVersionNumber (after.skip 1)
    return (.versionDirective major minor, after)
  | _ => .error .badDirective

/-- The handle and what it stands for, after the name of the directive that declares it. -/
def readTagDeclaration (c : Cursor) : Except ReadError (Token × Cursor) := do
  let c := c.skipSpaces
  match c.rest with
  | '!' :: _ =>
    let (handle, afterHandle) := readHandle c
    if !(isClosedHandle handle || handle == ['!']) then .error .badDirective
    if !(afterHandle.rest.head?.any isSpaceOrTab) then .error .badDirective
    let (text, after) ← readTagText true afterHandle.skipSpaces
    if text.isEmpty || !atGap after.rest then .error .badDirective
    return (.tagDirective (String.ofList handle) (untilZero text), after)
  | _ => .error .badDirective

/-- Read a directive to the beginning of the next line. -/
def readDirective (c : Cursor) : Except ReadError (Token × Cursor) := do
  let (name, afterName) := (c.skip 1).takeWhile isWordChar
  if name.isEmpty || !atGap afterName.rest then .error .badDirective
  let (token, after) ←
    if name == "YAML".toList then readVersion afterName
    else if name == "TAG".toList then readTagDeclaration afterName
    else .error .badDirective
  match after.endLine? with
  | some next => return (token, next)
  | none => .error .badDirective

/-! ## Scalars -/

/-- The token of a scalar that has been read. -/
def ofScalar (style : ScalarStyle) (s : ScalarEnd) : Token :=
  .scalar style (String.ofList s.text)

/-- A plain scalar begins here: with a character that means nothing else, or with `-`, `?` or `:` where
it is not set off. -/
def beginsPlain (inFlow : Bool) : List Char → Bool
  | [] => false
  | c :: rest =>
    if c == '-' then !(rest.head?.any isSpaceOrTab)
    else if c == '?' || c == ':' then !inFlow && !atGap rest
    else !(atGap (c :: rest) || [',', '[', ']', '{', '}', '#', '&', '*', '!', '|', '>', '\x27', '"',
      '%', '@', '\x60'].contains c)

end Token

end ConfigDrive.Yaml
