/-
# ConfigDrive.Yaml.Document — the one document of a text.

A text holds at most one document: directives and a start mark if any, a root node, and end marks.
`Composition` is the state of a reader between two tokens.  An anchor gives its name a number, the
number of names known before; a reference means the last node that was given the number of its name.
`Document.ofText` reads a whole text.
-/
import ConfigDrive.Yaml.Layout
import ConfigDrive.Yaml.Node

namespace ConfigDrive.Yaml

/-! ## Anchors -/

/-- The anchors read so far: the number of each name, the numbers of the anchored nodes in the order in
which they began, latest first, and those of the nodes that are complete. -/
structure Anchors where
  numbers : List (String × Nat)
  begun : List Nat
  complete : List (Nat × Node)

namespace Anchors

/-- The number of a name. -/
def number? (a : Anchors) (name : String) : Option Nat :=
  a.numbers.lookup name

/-- Begin a node with an anchor.  The result is the node's place among the anchored nodes. -/
def begin (a : Anchors) (name : String) : Nat × Anchors :=
  let number := a.numbers.length
  let others := a.numbers.filter (·.1 != name)
  (a.begun.length, { a with numbers := (name, number) :: others, begun := number :: a.begun })

/-- Complete the node at a place, if it has one. -/
def finish (a : Anchors) (place : Option Nat) (n : Node) : Anchors :=
  match place with
  | some p => { a with complete := (p, n) :: a.complete }
  | none => a

/-- The nodes that numbers stand for; for a number given more than once the first entry counts. -/
def table (a : Anchors) : List (Nat × Node) :=
  let places := (List.range a.begun.length).reverse
  (a.begun.zip places).filterMap fun (number, place) =>
    (a.complete.lookup place).map (number, ·)

end Anchors

/-! ## Composition -/

/-- A document: its root, if it has one, and the nodes that references stand for. -/
structure Document where
  root : Option Node
  anchored : List (Nat × Node)
  deriving Repr

/-- How far the document is.  Before the root, `explicit` tells that a start mark was read. -/
inductive Stage
  | directives (version : Bool) (handles : List (String × TagText))
  | content (explicit : Bool)
  | afterRoot (root : Node)
  | finished (root : Option Node)

/-- Anchor and tag read before a node that has not begun yet. -/
structure Properties where
  anchor : Option String
  tag : Option TagText

namespace Properties

/-- No anchor and no tag. -/
def none : Properties :=
  ⟨.none, .none⟩

/-- There is neither an anchor nor a tag. -/
def isNone (p : Properties) : Bool :=
  p.anchor.isNone && p.tag.isNone

end Properties

/-- The state of a reader of tokens. -/
structure Composition where
  stage : Stage
  frames : List Frame
  pending : Properties
  handles : List (String × TagText)
  anchors : Anchors

namespace Composition

/-- The reader before the first token. -/
def start : Composition :=
  ⟨.directives false [], [], .none, [], ⟨[], [], []⟩⟩

/-- What the handles stand for that no directive declares. -/
def defaultHandles : List (String × TagText) :=
  [("!", Text.Utf8.encode ['!']), ("!!", Text.Utf8.encode "tag:yaml.org,2002:".toList)]

/-- The tag that a handle and a suffix write. -/
def resolveTag (s : Composition) (handle : String) (suffix : TagText) :
    Except ReadError TagText :=
  if handle.isEmpty then .ok suffix
  else
    match s.handles.lookup handle with
    | some start => .ok (start ++ suffix)
    | none => .error .undeclaredHandle

/-- Give the pending anchor its number and take the pending properties as the head of a node. -/
def takeHead (s : Composition) : Head × Composition :=
  match s.pending.anchor with
  | some name =>
    let (place, anchors) := s.anchors.begin name
    (⟨s.pending.tag, some place⟩, { s with pending := .none, anchors })
  | none => (⟨s.pending.tag, none⟩, { s with pending := .none })

/-- Put a node where one is awaited: into the innermost collection, or at the root. -/
def deliver (s : Composition) (n : Node) : Composition :=
  match s.frames with
  | f :: fs => { s with frames := f.deliver n :: fs }
  | [] => { s with stage := .afterRoot n }

/-- A complete node with its head: note it under its anchor and put it in. -/
def complete (s : Composition) (head : Head) (n : Node) : Composition :=
  { s with anchors := s.anchors.finish head.anchored n }.deliver n

/-- The context of a node here, if one is awaited. -/
def context? (s : Composition) : Option NodeContext :=
  match s.frames with
  | f :: _ => f.context?
  | [] => some ⟨true, false⟩

/-- Take a token that begins a node or stands before one; other tokens give nothing.  The lone mark `!` is
a tag like any other and stays on the node, also on a scalar that is not empty. -/
def begin? (s : Composition) (ctx : NodeContext) (t : Token) : Except ReadError (Option Composition) :=
  match t with
  | .reference name =>
    if s.pending.isNone then
      match s.anchors.number? name with
      | some n => .ok (some (s.deliver (.reference n)))
      | none => .error .unknownAlias
    else .ok none
  | .anchor name =>
    if s.pending.anchor.isNone then
      .ok (some { s with pending := { s.pending with anchor := some name } })
    else .ok none
  | .tag handle suffix =>
    if s.pending.tag.isNone then do
      let tag ← s.resolveTag handle suffix
      return some { s with pending := { s.pending with tag := some tag } }
    else .ok none
  | .scalar style text =>
    let (head, s) := s.takeHead
    .ok (some (s.complete head (.scalar head.tag style text)))
  | _ =>
    let (head, s) := s.takeHead
    .ok ((Frame.open? ctx head t).map fun f => { s with frames := f :: s.frames })

/-- The empty node that the pending properties write, if there are any. -/
def takeAbsent (s : Composition) : Option Node × Composition :=
  if s.pending.isNone then (none, s)
  else
    let (head, s) := s.takeHead
    let n := Node.scalar head.tag .plain ""
    (some n, { s with anchors := s.anchors.finish head.anchored n })

/-- Close the innermost collection. -/
def close (s : Composition) : Composition :=
  match s.frames with
  | f :: fs => { s with frames := fs }.complete f.head f.node
  | [] => s

/-- Take a token after the root. -/
def afterRoot (s : Composition) (root : Node) : Token → Except ReadError Composition
  | .documentEnd => .ok s
  | .streamEnd => .ok { s with stage := .finished (some root) }
  | _ => .error .moreThanOneDocument

/-- The token cannot belong to the root, so an explicit document without one ends before it. -/
def isBoundary : Token → Bool
  | .versionDirective _ _ => true
  | .tagDirective _ _ => true
  | .documentStart => true
  | .documentEnd => true
  | .streamEnd => true
  | _ => false

/-- Supply what is left out in the innermost collection before a token. -/
def supply (s : Composition) (pending : Option Node) (t : Token) : Composition :=
  match s.frames with
  | f :: fs => { s with frames := f.supply pending t :: fs }
  | [] => s

/-- Close the innermost collection if it ends before a token without a mark. -/
def closeOver (s : Composition) (t : Token) : Composition :=
  match s.frames with
  | f :: _ => if f.isOverBefore t then s.close.supply none t else s
  | [] => s

/-- Take a token that is a mark of the innermost collection. -/
def mark (s : Composition) (explicit : Bool) (t : Token) : Except ReadError Composition := do
  let (pending, s) := s.takeAbsent
  let s := (s.supply pending t).closeOver t
  match s.frames with
  | f :: fs =>
    match ← f.advance t with
    | .stay f => return { s with frames := f :: fs }
    | .openPair f => return { s with frames := .pair :: f :: fs }
    | .close => return s.close
  | [] =>
    if pending.isSome || (explicit && isBoundary t) then
      let root := pending.getD .absent
      { s with stage := .afterRoot root }.afterRoot root t
    else .error .unexpectedToken

/-- Take a token of the document's content. -/
def content (s : Composition) (explicit : Bool) (t : Token) : Except ReadError Composition := do
  let begun ←
    match s.context? with
    | some ctx => s.begin? ctx t
    | none => .ok none
  match begun with
  | some s => return s
  | none => s.mark explicit t

/-- Begin the content of the document under its directives. -/
def beginContent (s : Composition) (explicit : Bool) (handles : List (String × TagText)) :
    Composition :=
  { s with stage := .content explicit, handles := handles ++ defaultHandles }

/-- Take one token. -/
def feed (s : Composition) (t : Token) : Except ReadError Composition :=
  match s.stage with
  | .directives version handles =>
    match t with
    | .versionDirective major minor =>
      if version || major != 1 || !(minor == 1 || minor == 2) then .error .unusableDirective
      else .ok { s with stage := .directives true handles }
    | .tagDirective handle start =>
      if (handles.lookup handle).isSome then .error .unusableDirective
      else .ok { s with stage := .directives version ((handle, start) :: handles) }
    | .documentStart => .ok (s.beginContent true handles)
    | t =>
      if version || !handles.isEmpty then .error .unexpectedToken
      else if t = .streamEnd then .ok { s with stage := .finished none }
      else (s.beginContent false []).content false t
  | .content explicit => s.content explicit t
  | .afterRoot root => s.afterRoot root t
  | .finished _ => .error .unexpectedToken

end Composition

namespace Document

/-- The document that tokens write. -/
def ofTokens (ts : List Token) : Except ReadError Document := do
  let s ← ts.foldlM Composition.feed Composition.start
  match s.stage with
  | .finished root => return ⟨root, s.anchors.table⟩
  | _ => .error .unexpectedToken

/-- The document of a text. -/
def ofText (text : List Char) : Except ReadError Document := do
  ofTokens (← tokens (← readable? text))

/-- The number of events of a document.  One without a root counts as one. -/
def events (d : Document) : Nat :=
  (d.root.map Node.events).getD 1

/-- The node that a number stands for. -/
def anchored? (d : Document) (number : Nat) : Option Node :=
  d.anchored.lookup number

end Document

end ConfigDrive.Yaml
