/-
# ConfigDrive.Yaml.Node — the tree that tokens write.

A node is a scalar as it stands in the text, a collection, or a reference to an anchored node.  While
tokens are read, the open collections form a stack of frames.  A frame knows which node or mark it
waits for; `Frame.supply` puts an empty text where a node is left out, and `Frame.advance` takes a
mark.  Two kinds of collection have no end mark of their own: a sequence set in a mapping at the same
column, and a single pair in a flow sequence.  They end before the first token that does not continue
them.
-/
import ConfigDrive.Yaml.Token

namespace ConfigDrive.Yaml

/-! ## Nodes -/

/-- A node of a document.  Tags are complete, anchors are numbers. -/
inductive Node
  | scalar (tag : Option TagText) (style : ScalarStyle) (text : String)
  | sequence (tag : Option TagText) (items : List Node)
  | mapping (tag : Option TagText) (entries : List (Node × Node))
  | reference (anchor : Nat)
  deriving Inhabited, Repr

namespace Node

/-- What stands where a node is left out: an empty plain scalar. -/
def absent : Node :=
  .scalar none .plain ""

mutual

/-- The number of events that a node stands for: one for a scalar or a reference, and for a collection
its start, its end and the events of its parts. -/
def events : Node → Nat
  | .scalar _ _ _ => 1
  | .sequence _ items => eventsOfItems items + 2
  | .mapping _ entries => eventsOfEntries entries + 2
  | .reference _ => 1

/-- The number of events of the items of a sequence. -/
def eventsOfItems : List Node → Nat
  | [] => 0
  | n :: ns => events n + eventsOfItems ns

/-- The number of events of the entries of a mapping. -/
def eventsOfEntries : List (Node × Node) → Nat
  | [] => 0
  | (k, v) :: es => events k + events v + eventsOfEntries es

end

end Node

/-! ## Open collections -/

/-- What stands before a node: its tag and the number of its anchor among all anchored nodes. -/
structure Head where
  tag : Option TagText
  anchored : Option Nat

/-- How a sequence is written. -/
inductive SequenceForm
  | block
  | inset
  | flow
  deriving DecidableEq

/-- What an open sequence waits for: an item or its end, a mark, or an item after its mark. -/
inductive SequencePlace
  | opening
  | between
  | item
  deriving DecidableEq

/-- How a mapping is written. -/
inductive MappingForm
  | block
  | flow
  | pair
  deriving DecidableEq

/-- What an open mapping waits for: an entry or its end, a mark, a key, the mark of the value of a key,
or that value. -/
inductive MappingPlace
  | opening
  | between
  | key
  | afterKey (key : Node)
  | value (key : Node)

/-- An open collection, with its parts so far, latest first. -/
inductive Frame
  | sequence (form : SequenceForm) (head : Head) (items : List Node) (place : SequencePlace)
  | mapping (form : MappingForm) (head : Head) (entries : List (Node × Node)) (place : MappingPlace)

/-- Where a node may stand: whether block collections may, and whether a sequence may be set in at the
column of the mapping around it. -/
structure NodeContext where
  block : Bool
  inset : Bool

namespace Frame

/-- The context of the node that a frame waits for, if it waits for one. -/
def context? : Frame → Option NodeContext
  | .sequence _ _ _ .opening => some ⟨false, false⟩
  | .sequence _ _ _ .item => some ⟨true, false⟩
  | .sequence _ _ _ .between => none
  | .mapping .block _ _ .key => some ⟨true, true⟩
  | .mapping .block _ _ (.value _) => some ⟨true, true⟩
  | .mapping _ _ _ .opening => some ⟨false, false⟩
  | .mapping _ _ _ .key => some ⟨false, false⟩
  | .mapping _ _ _ (.value _) => some ⟨false, false⟩
  | .mapping _ _ _ .between => none
  | .mapping _ _ _ (.afterKey _) => none

/-- Put in the node that a frame waits for.  A node where a key may stand without a mark is a key. -/
def deliver (n : Node) : Frame → Frame
  | .sequence form head items _ => .sequence form head (n :: items) .between
  | .mapping form head entries .key => .mapping form head entries (.afterKey n)
  | .mapping form head entries (.value k) => .mapping form head ((k, n) :: entries) .between
  | .mapping form head entries _ => .mapping form head ((n, .absent) :: entries) .between

/-- Put in an empty text for each node that is left out before a token.  `pending` is the empty node
with the tag and anchor read last, if there are any; without them the beginning of a flow entry and the
key of a pair are not left out. -/
def supply (pending : Option Node) (t : Token) : Frame → Frame
  | .sequence form head items .item =>
    .sequence form head (pending.getD .absent :: items) .between
  | .mapping form head entries (.value k) =>
    .mapping form head ((k, pending.getD .absent) :: entries) .between
  | .mapping form head entries (.afterKey k) =>
    if t = .value then .mapping form head entries (.afterKey k)
    else .mapping form head ((k, .absent) :: entries) .between
  | .mapping form head entries .key =>
    if form = .pair && pending.isNone then .mapping form head entries .key
    else if t = .value then .mapping form head entries (.afterKey (pending.getD .absent))
    else .mapping form head ((pending.getD .absent, .absent) :: entries) .between
  | f =>
    match pending, f.context? with
    | some n, some _ => f.deliver n
    | _, _ => f

/-- A collection without an end mark is over before this token. -/
def isOverBefore (t : Token) : Frame → Bool
  | .sequence .inset _ _ .between => t != .blockEntry
  | .mapping .pair _ _ .between => true
  | _ => false

/-- The head of the collection. -/
def head : Frame → Head
  | .sequence _ head _ _ => head
  | .mapping _ head _ _ => head

/-- The node that a complete frame stands for. -/
def node : Frame → Node
  | .sequence _ head items _ => .sequence head.tag items.reverse
  | .mapping _ head entries _ => .mapping head.tag entries.reverse

/-- What a mark does to the frame it is given to. -/
inductive Effect
  | stay (f : Frame)
  | openPair (f : Frame)
  | close

/-- Take a mark.  The key of a pair is left out where one of its other marks stands at its place; that
mark is taken in its stead. -/
def advance (t : Token) : Frame → Except ReadError Effect
  | .sequence .flow head items .opening =>
    match t with
    | .flowSequenceEnd => .ok .close
    | .key => .ok (.openPair (.sequence .flow head items .opening))
    | _ => .error .unexpectedToken
  | .sequence .flow head items .between =>
    match t with
    | .flowEntry => .ok (.stay (.sequence .flow head items .opening))
    | .flowSequenceEnd => .ok .close
    | _ => .error .unexpectedToken
  | .sequence form head items .between =>
    match t with
    | .blockEntry => .ok (.stay (.sequence form head items .item))
    | .blockEnd => .ok .close
    | _ => .error .unexpectedToken
  | .mapping .block head entries .between =>
    match t with
    | .key => .ok (.stay (.mapping .block head entries .key))
    | .blockEnd => .ok .close
    | _ => .error .unexpectedToken
  | .mapping .flow head entries .opening =>
    match t with
    | .key => .ok (.stay (.mapping .flow head entries .key))
    | .flowMappingEnd => .ok .close
    | _ => .error .unexpectedToken
  | .mapping .flow head entries .between =>
    match t with
    | .flowEntry => .ok (.stay (.mapping .flow head entries .opening))
    | .flowMappingEnd => .ok .close
    | _ => .error .unexpectedToken
  | .mapping .pair head entries .key =>
    if t = .value ∨ t = .flowEntry ∨ t = .flowSequenceEnd then
      .ok (.stay (.mapping .pair head entries (.afterKey .absent)))
    else .error .unexpectedToken
  | .mapping form head entries (.afterKey k) =>
    if t = .value then .ok (.stay (.mapping form head entries (.value k)))
    else .error .unexpectedToken
  | _ => .error .unexpectedToken

/-- The frame of a pair that has just begun. -/
def pair : Frame :=
  .mapping .pair ⟨none, none⟩ [] .key

/-- The frame that a token opens in a context.  The mark of an entry opens a sequence that is set in,
and is the mark of its first item. -/
def open? (ctx : NodeContext) (head : Head) (t : Token) : Option Frame :=
  match t with
  | .flowSequenceStart => some (.sequence .flow head [] .opening)
  | .flowMappingStart => some (.mapping .flow head [] .opening)
  | .blockSequenceStart => if ctx.block then some (.sequence .block head [] .between) else none
  | .blockMappingStart => if ctx.block then some (.mapping .block head [] .between) else none
  | .blockEntry => if ctx.inset then some (.sequence .inset head [] .item) else none
  | _ => none

end Frame

end ConfigDrive.Yaml
