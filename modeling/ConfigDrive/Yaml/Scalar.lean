/-
# ConfigDrive.Yaml.Scalar — the text of plain, quoted and block scalars.

A scalar may run over several lines.  Blanks and line breaks between two of its words are held back as
a **gap** until the next word shows that they belong to the text; a gap with a line break is then
folded, one break into a space and further breaks into themselves.  In a literal or folded block the
same is done line by line.  Every function here recurses on the text that is left.
-/
import ConfigDrive.Yaml.Cursor

namespace ConfigDrive.Yaml

/-- How a scalar is written. -/
inductive ScalarStyle
  | plain
  | quoted
  | literal
  | folded
  deriving DecidableEq, Repr

/-! ## Gaps between words -/

/-- Blanks and breaks after a word, latest first.  A broken gap remembers its first break, which an
escaped line break leaves out. -/
inductive Gap
  | spaces (run : List Char)
  | broken (first : Option Char) (more : List Char)

namespace Gap

/-- No gap. -/
def none : Gap :=
  .spaces []

/-- The last character read was a blank or a break. -/
def isOpen : Gap → Bool
  | .spaces run => !run.isEmpty
  | .broken _ _ => true

/-- The gap reaches over the end of a line. -/
def isBroken : Gap → Bool
  | .spaces _ => false
  | .broken _ _ => true

/-- Add a blank or a break.  Blanks after a break do not count. -/
def push (g : Gap) (c : Char) : Gap :=
  match g with
  | .spaces run => if isBreak c then .broken (some c) [] else .spaces (c :: run)
  | .broken first more => if isBreak c then .broken first (c :: more) else .broken first more

/-- What the gap contributes to the text, latest first: a single line feed is a space, several are one
less, and a separator character stays. -/
def folded : Gap → List Char
  | .spaces run => run
  | .broken (some '\n') [] => [' ']
  | .broken (some '\n') more => more
  | .broken first more => more ++ first.toList

end Gap

/-! ## Plain scalars -/

/-- A scalar that has been read: its text, the place after it, and whether a line break was passed just
before that place. -/
structure ScalarEnd where
  text : List Char
  cursor : Cursor
  crossedLine : Bool

/-- A colon here would be read as part of a plain scalar in a flow collection and yet touch one of its
marks. -/
def isAmbiguousColon : List Char → Bool
  | ':' :: c :: _ => [',', '?', '[', ']', '{', '}'].contains c
  | _ => false

/-- A plain scalar ends before this character: a colon that is set off, or a mark of a flow collection. -/
def endsPlain (inFlow : Bool) : List Char → Bool
  | [] => true
  | c :: rest => (c == ':' && atGap rest) || (inFlow && [',', '[', ']', '{', '}'].contains c)

/-- Read a plain scalar; `out` is the text so far, latest first.  In block context it goes on over a
line break only in columns from `indent` on. -/
def scanPlain (inFlow : Bool) (indent : Int) (out : List Char) (gap : Gap) (p : Position) :
    List Char → Except ReadError ScalarEnd
  | [] => .ok ⟨out.reverse, ⟨[], p⟩, gap.isBroken⟩
  | c :: rest =>
    if isBreak c then scanPlain inFlow indent out (gap.push c) p.nextLine rest
    else if isSpaceOrTab c then
      if gap.isBroken && c == '\t' && decide ((p.column : Int) < indent) then .error .tabInIndentation
      else scanPlain inFlow indent out (gap.push c) (p.next c) rest
    else if gap.isOpen && ((!inFlow && decide ((p.column : Int) < indent)) || c == '#' ||
        atMarker p.column (c :: rest)) then
      .ok ⟨out.reverse, ⟨c :: rest, p⟩, gap.isBroken⟩
    else if inFlow && isAmbiguousColon (c :: rest) then .error .unexpectedColon
    else if endsPlain inFlow (c :: rest) then
      .ok ⟨out.reverse, ⟨c :: rest, p⟩, gap.isBroken⟩
    else scanPlain inFlow indent (c :: (gap.folded ++ out)) Gap.none (p.next c) rest

/-! ## Quoted scalars -/

/-- Read a single-quoted scalar after its opening quote; a doubled quote is one quote. -/
def scanSingle (out : List Char) (gap : Gap) (p : Position) :
    List Char → Except ReadError ScalarEnd
  | [] => .error .unclosedQuote
  | c :: rest =>
    if isBreak c then scanSingle out (gap.push c) p.nextLine rest
    else if isSpaceOrTab c then scanSingle out (gap.push c) (p.next c) rest
    else if atMarker p.column (c :: rest) then .error .unclosedQuote
    else
      let out := gap.folded ++ out
      if c == '\x27' then
        match rest with
        | '\x27' :: rest => scanSingle ('\x27' :: out) Gap.none ((p.next c).next c) rest
        | _ => .ok ⟨out.reverse, ⟨rest, p.next c⟩, false⟩
      else scanSingle (c :: out) Gap.none (p.next c) rest

/-- The value of a hexadecimal digit. -/
def hexDigit? (c : Char) : Option Nat :=
  if c.isDigit then some (c.toNat - 48)
  else if 'a' ≤ c ∧ c ≤ 'f' then some (c.toNat - 87)
  else if 'A' ≤ c ∧ c ≤ 'F' then some (c.toNat - 55)
  else none

/-- What an escape of one character stands for. -/
def simpleEscape? : Char → Option Char
  | '0' => some '\x00'
  | 'a' => some '\x07'
  | 'b' => some '\x08'
  | 't' | '\t' => some '\t'
  | 'n' => some '\n'
  | 'v' => some '\x0B'
  | 'f' => some '\x0C'
  | 'r' => some '\r'
  | 'e' => some '\x1B'
  | ' ' => some ' '
  | '"' => some '"'
  | '/' => some '/'
  | '\\' => some '\\'
  | 'N' => some '\u0085'
  | '_' => some '\u00A0'
  | 'L' => some '\u2028'
  | 'P' => some '\u2029'
  | _ => none

/-- How many hexadecimal digits follow a numeric escape. -/
def numericEscape? : Char → Option Nat
  | 'x' => some 2
  | 'u' => some 4
  | 'U' => some 8
  | _ => none

/-- Where a reader of double-quoted text stands inside an escape. -/
inductive EscapeState
  | outside
  | begun
  | digits (missing : Nat) (value : Nat)

/-- Read a double-quoted scalar after its opening quote. -/
def scanDouble (state : EscapeState) (out : List Char) (gap : Gap) (p : Position) :
    List Char → Except ReadError ScalarEnd
  | [] => .error .unclosedQuote
  | c :: rest =>
    match state with
    | .begun =>
      if isBreak c then scanDouble .outside out (.broken none []) p.nextLine rest
      else
        match simpleEscape? c, numericEscape? c with
        | some d, _ => scanDouble .outside (d :: out) Gap.none (p.next c) rest
        | none, some n => scanDouble (.digits n 0) out Gap.none (p.next c) rest
        | none, none => .error .badEscape
    | .digits missing value =>
      match hexDigit? c with
      | none => .error .badEscape
      | some d =>
        let value := value * 16 + d
        if 1 < missing then
          scanDouble (.digits (missing - 1) value) out Gap.none (p.next c) rest
        else if value.isValidChar then
          scanDouble .outside (Char.ofNat value :: out) Gap.none (p.next c) rest
        else .error .badEscape
    | .outside =>
      if isBreak c then scanDouble .outside out (gap.push c) p.nextLine rest
      else if isSpaceOrTab c then scanDouble .outside out (gap.push c) (p.next c) rest
      else if atMarker p.column (c :: rest) then .error .unclosedQuote
      else
        let out := gap.folded ++ out
        if c == '"' then .ok ⟨out.reverse, ⟨rest, p.next c⟩, false⟩
        else if c == '\\' then scanDouble .begun out Gap.none (p.next c) rest
        else scanDouble .outside (c :: out) Gap.none (p.next c) rest

/-! ## Block scalars -/

/-- What happens to the line breaks at the end of a block scalar. -/
inductive Chomping
  | strip
  | clip
  | keep
  deriving DecidableEq, Repr

/-- The header of a block scalar: its chomping and the indentation it asks for, if any. -/
structure BlockHeader where
  chomping : Chomping
  increment : Option Nat

/-- A chomping mark. -/
def chomping? : Char → Option Chomping
  | '+' => some .keep
  | '-' => some .strip
  | _ => none

/-- An indentation mark: a digit, but not zero. -/
def increment? (c : Char) : Option Nat :=
  if c.isDigit && c != '0' then some (c.toNat - 48) else none

/-- Read the header of a block scalar after its opening mark; the two marks come in either order. -/
def scanBlockHeader (c : Cursor) : BlockHeader × Cursor :=
  match c.rest with
  | a :: rest =>
    match chomping? a, increment? a with
    | some ch, _ =>
      match rest.head?.bind increment? with
      | some n => (⟨ch, some n⟩, c.skip 2)
      | none => (⟨ch, none⟩, c.skip 1)
    | none, some n =>
      match rest.head?.bind chomping? with
      | some ch => (⟨ch, some n⟩, c.skip 2)
      | none => (⟨.clip, some n⟩, c.skip 1)
    | none, none => (⟨.clip, none⟩, c)
  | [] => (⟨.clip, none⟩, c)

/-- A block scalar while it is read, texts latest first: the text of the lines that are complete, the
break that ended the last of them, the empty lines since, and whether that line began with a blank. -/
structure BlockText where
  out : List Char
  lineBreak : Option Char
  empties : List Char
  beganBlank : Bool

/-- The text of a block when its next line begins.  A folded block joins two lines by a space, unless
one of them begins with a blank or empty lines stand between them. -/
def BlockText.beginLine (b : BlockText) (literal : Bool) (beginsBlank : Bool) : BlockText :=
  let joined :=
    if !literal && b.lineBreak == some '\n' && !b.beganBlank && !beginsBlank then
      (if b.empties.isEmpty then [' '] else b.empties)
    else b.empties ++ b.lineBreak.toList
  ⟨joined ++ b.out, none, [], beginsBlank⟩

/-- The text of a finished block. -/
def BlockText.finish (b : BlockText) : Chomping → List Char
  | .strip => b.out.reverse
  | .clip => (b.lineBreak.toList ++ b.out).reverse
  | .keep => (b.empties ++ b.lineBreak.toList ++ b.out).reverse

/-- The indentation of a block that asks for none: that of its first line with text, or of a deeper
empty line before it, but at least one more than the surrounding block. -/
def detectedIndent (parent : Int) (deepest : Nat) : Nat :=
  max deepest (max 1 (parent + 1).toNat)

/-- Read the lines of a block scalar.  `indent` is its indentation, zero while it is not known;
`inText` tells that a line has begun; `deepest` is the deepest column of the empty lines so far. -/
def scanBlock (literal : Bool) (chomping : Chomping) (parent : Int) (indent : Nat) (inText : Bool)
    (deepest : Nat) (b : BlockText) (p : Position) : List Char → Except ReadError ScalarEnd
  | [] => .ok ⟨b.finish chomping, ⟨[], p⟩, false⟩
  | c :: rest =>
    if inText then
      if isBreak c then
        scanBlock literal chomping parent indent false 0 { b with lineBreak := some c } p.nextLine rest
      else
        scanBlock literal chomping parent indent true 0 { b with out := c :: b.out } (p.next c) rest
    else if isBreak c then
      scanBlock literal chomping parent indent false (max deepest p.column)
        { b with empties := c :: b.empties } p.nextLine rest
    else if (indent == 0 || decide (p.column < indent)) && c == ' ' then
      scanBlock literal chomping parent indent false deepest b (p.next c) rest
    else if (indent == 0 || decide (p.column < indent)) && c == '\t' then .error .tabInIndentation
    else
      let indent := if indent == 0 then detectedIndent parent (max deepest p.column) else indent
      if p.column == indent then
        let b := b.beginLine literal (isSpaceOrTab c)
        scanBlock literal chomping parent indent true 0 { b with out := c :: b.out } (p.next c) rest
      else .ok ⟨b.finish chomping, ⟨c :: rest, p⟩, false⟩

/-- Read a literal or folded scalar after its opening mark; `parent` is the indentation around it. -/
def scanBlockScalar (literal : Bool) (parent : Int) (c : Cursor) : Except ReadError ScalarEnd :=
  let (header, c) := scanBlockHeader c
  match c.endLine? with
  | none => .error .badBlockHeader
  | some c =>
    let indent :=
      match header.increment with
      | some n => (max parent 0).toNat + n
      | none => 0
    scanBlock literal header.chomping parent indent false 0 ⟨[], none, [], false⟩ c.position
      c.rest

end ConfigDrive.Yaml
