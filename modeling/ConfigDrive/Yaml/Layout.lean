/-
# ConfigDrive.Yaml.Layout — the tokens that indentation and colons write.

Reading goes from token to token.  In block context the column at which a token begins opens and closes
collections, and a colon makes a key of the token before it on the same line: the token after which
such a colon may come is the **candidate**, and its key mark is put in front of it once the colon is
met.  Inside flow collections indentation means nothing, but each collection has a candidate of its
own.  `Layout.dispatch` reads one token; `tokens` repeats it until the text ends.  Every token takes at
least one character, so the length of the text bounds how often that is.
-/
import ConfigDrive.Yaml.Token

namespace ConfigDrive.Yaml

/-- A token that becomes a key if a colon follows it: its number and place, and whether it must be a
key because it begins a line of a block mapping. -/
structure Candidate where
  required : Bool
  index : Nat
  position : Position

/-- The state of a reader between two tokens. -/
structure Layout where
  cursor : Cursor
  /-- The tokens so far. -/
  out : Array Token
  /-- The column of the innermost open block collection, and those around it; `-1` is outside all. -/
  indent : Int
  outerIndents : List Int
  /-- A key may begin here without a mark. -/
  keyAllowed : Bool
  candidate : Option Candidate
  /-- The candidates around the open flow collections, innermost first. -/
  outerCandidates : List (Option Candidate)

namespace Layout

/-- The reader at the beginning of a text. -/
def start (text : List Char) : Layout :=
  ⟨Cursor.start text, #[], -1, [], true, none, []⟩

/-- A flow collection is open. -/
def inFlow (s : Layout) : Bool :=
  !s.outerCandidates.isEmpty

/-- Add a token and go to a place. -/
def emit (s : Layout) (t : Token) (cursor : Cursor) : Layout :=
  { s with out := s.out.push t, cursor }

/-- Put a token in front of the one with a given number. -/
def insertBefore (s : Layout) (index : Nat) (t : Token) : Layout :=
  { s with out := s.out.insertIdxIfInBounds index t }

/-! ## Indentation -/

/-- How many blocks are indented deeper than a column, and the indentations that remain. -/
def closing (column indent : Int) : List Int → Nat × Int × List Int
  | [] => (0, indent, [])
  | o :: os =>
    if column < indent then
      let (n, rest) := closing column o os
      (n + 1, rest)
    else (0, indent, o :: os)

/-- End the blocks that are indented deeper than a column. -/
def closeBlocks (s : Layout) (column : Int) : Layout :=
  if s.inFlow then s
  else
    let (n, indent, outerIndents) := closing column s.indent s.outerIndents
    { s with out := s.out ++ Array.replicate n .blockEnd, indent, outerIndents }

/-- Open a block at a column, in front of the token with a given number, unless one is open there. -/
def openBlock (s : Layout) (column index : Nat) (t : Token) : Layout :=
  if s.inFlow || decide ((column : Int) ≤ s.indent) then s
  else { s.insertBefore index t with indent := column, outerIndents := s.indent :: s.outerIndents }

/-! ## Candidates -/

/-- Give up a candidate; one that had to be a key is missing its colon. -/
def giveUp : Option Candidate → Except ReadError (Option Candidate)
  | some k => if k.required then .error .missingColon else .ok none
  | none => .ok none

/-- Give up the innermost candidate. -/
def dropCandidate (s : Layout) : Except ReadError Layout := do
  return { s with candidate := ← giveUp s.candidate }

/-- A candidate that lies on an earlier line, or more than 1024 bytes back, cannot become a key. -/
def isExpired (here : Position) (k : Candidate) : Bool :=
  k.position.line < here.line || k.position.bytes + 1024 < here.bytes

/-- Give up a candidate that can no longer become a key.  The turn of those around an open flow
collection comes when it has ended. -/
def expireCandidate (s : Layout) : Except ReadError Layout :=
  if s.candidate.any (isExpired s.cursor.position) then s.dropCandidate else .ok s

/-- Make the token that begins here the candidate, if a key may begin here. -/
def markCandidate (s : Layout) : Except ReadError Layout :=
  if s.keyAllowed then do
    let required := !s.inFlow && s.indent == (s.cursor.position.column : Int)
    let s ← s.dropCandidate
    return { s with candidate := some ⟨required, s.out.size, s.cursor.position⟩ }
  else .ok s

/-! ## Single tokens -/

/-- A directive or document marker, which ends all blocks. -/
def document (s : Layout) (t : Token) (cursor : Cursor) : Except ReadError Layout := do
  let s ← (s.closeBlocks (-1)).dropCandidate
  return { s.emit t cursor with keyAllowed := false }

/-- The start of a flow collection. -/
def openFlow (s : Layout) (t : Token) : Except ReadError Layout := do
  let s ← s.markCandidate
  return { s.emit t (s.cursor.skip 1) with
    keyAllowed := true, candidate := none, outerCandidates := s.candidate :: s.outerCandidates }

/-- The end of a flow collection. -/
def closeFlow (s : Layout) (t : Token) : Except ReadError Layout := do
  let s ← s.dropCandidate
  let s := { s.emit t (s.cursor.skip 1) with keyAllowed := false }
  match s.outerCandidates with
  | [] => return s
  | k :: ks => return { s with candidate := k, outerCandidates := ks }

/-- The comma between two entries of a flow collection. -/
def flowEntry (s : Layout) : Except ReadError Layout := do
  let s ← s.dropCandidate
  return { s.emit .flowEntry (s.cursor.skip 1) with keyAllowed := true }

/-- The mark of an entry of a block sequence. -/
def blockEntry (s : Layout) : Except ReadError Layout := do
  if !s.inFlow && !s.keyAllowed then .error .entryNotAllowed
  let s ← (s.openBlock s.cursor.position.column s.out.size .blockSequenceStart).dropCandidate
  return { s.emit .blockEntry (s.cursor.skip 1) with keyAllowed := true }

/-- The mark of an explicit key. -/
def explicitKey (s : Layout) : Except ReadError Layout := do
  if !s.inFlow && !s.keyAllowed then .error .keyNotAllowed
  let s ← (s.openBlock s.cursor.position.column s.out.size .blockMappingStart).dropCandidate
  return { s.emit .key (s.cursor.skip 1) with keyAllowed := !s.inFlow }

/-- The colon before a value.  It makes a key of the candidate, if there is one. -/
def mappingValue (s : Layout) : Except ReadError Layout :=
  match s.candidate with
  | some k =>
    let s := (s.insertBefore k.index .key).openBlock k.position.column k.index .blockMappingStart
    .ok { s.emit .value (s.cursor.skip 1) with candidate := none, keyAllowed := false }
  | none =>
    if !s.inFlow && !s.keyAllowed then .error .valueNotAllowed
    else
      let s := s.openBlock s.cursor.position.column s.out.size .blockMappingStart
      .ok { s.emit .value (s.cursor.skip 1) with keyAllowed := !s.inFlow }

/-- A token that may be, or begin, a key without a mark. -/
def node (s : Layout) (read : Cursor → Except ReadError (Token × Cursor)) :
    Except ReadError Layout := do
  let s ← s.markCandidate
  let (t, cursor) ← read s.cursor
  return { s.emit t cursor with keyAllowed := false }

/-- The reader of an alias or anchor. -/
def named (make : String → Token) (c : Cursor) : Except ReadError (Token × Cursor) := do
  let (name, after) ← Token.readName c
  return (make name, after)

/-- The reader of a quoted scalar. -/
def quoted (scan : Position → List Char → Except ReadError ScalarEnd) (c : Cursor) :
    Except ReadError (Token × Cursor) := do
  let opened := c.skip 1
  let scalar ← scan opened.position opened.rest
  return (Token.ofScalar .quoted scalar, scalar.cursor)

/-- A literal or folded scalar. -/
def blockScalar (s : Layout) (style : ScalarStyle) : Except ReadError Layout := do
  let s ← s.dropCandidate
  let scalar ← scanBlockScalar (style == .literal) s.indent (s.cursor.skip 1)
  return { s.emit (Token.ofScalar style scalar) scalar.cursor with keyAllowed := true }

/-- A plain scalar.  After one that ended with a line, a key may begin. -/
def plainScalar (s : Layout) : Except ReadError Layout := do
  let s ← s.markCandidate
  let c := s.cursor
  let scalar ← scanPlain s.inFlow (s.indent + 1) [] Gap.none c.position c.rest
  return { s.emit (Token.ofScalar .plain scalar) scalar.cursor with keyAllowed := scalar.crossedLine }

/-! ## Reading a text -/

/-- Read the token that begins with a character at the reader's place. -/
def dispatch (s : Layout) (c : Char) (rest : List Char) : Except ReadError Layout :=
  let separate := s.inFlow || atGap rest
  let atLineStart := s.cursor.position.column == 0
  if atLineStart && c == '%' then do
    let (t, cursor) ← Token.readDirective s.cursor
    s.document t cursor
  else if atLineStart && isMarker '-' (c :: rest) then s.document .documentStart (s.cursor.skip 3)
  else if atLineStart && isMarker '.' (c :: rest) then s.document .documentEnd (s.cursor.skip 3)
  else if c == '[' then s.openFlow .flowSequenceStart
  else if c == '{' then s.openFlow .flowMappingStart
  else if c == ']' then s.closeFlow .flowSequenceEnd
  else if c == '}' then s.closeFlow .flowMappingEnd
  else if c == ',' then s.flowEntry
  else if c == '-' && atGap rest then s.blockEntry
  else if c == '?' && separate then s.explicitKey
  else if c == ':' && separate then s.mappingValue
  else if c == '*' then s.node (named .reference)
  else if c == '&' then s.node (named .anchor)
  else if c == '!' then s.node (Token.readSeparateTag s.inFlow)
  else if c == '|' && !s.inFlow then s.blockScalar .literal
  else if c == '>' && !s.inFlow then s.blockScalar .folded
  else if c == '\x27' then s.node (quoted (scanSingle [] Gap.none))
  else if c == '"' then s.node (quoted (scanDouble .outside [] Gap.none))
  else if Token.beginsPlain s.inFlow (c :: rest) then s.plainScalar
  else .error .unexpectedCharacter

/-- Go to the next token, ending the blocks that do not reach to its column. -/
def advance (s : Layout) : Except ReadError Layout := do
  let c := s.cursor
  let (keyAllowed, cursor) := skipToToken s.inFlow false s.keyAllowed c.position c.rest
  let s ← expireCandidate { s with keyAllowed, cursor }
  return s.closeBlocks cursor.position.column

/-- Read the tokens that are left, at most so many of them. -/
def run : Nat → Layout → Except ReadError (List Token)
  | 0, _ => .error .unexpectedCharacter
  | limit + 1, s => do
    let s ← s.advance
    match s.cursor.rest with
    | [] =>
      let s ← s.document .streamEnd s.cursor
      return s.out.toList
    | c :: rest => run limit (← s.dispatch c rest)

end Layout

/-- The tokens of a text. -/
def tokens (text : List Char) : Except ReadError (List Token) :=
  (Layout.start text).run (text.length + 1)

end ConfigDrive.Yaml
