/-
# ConfigDrive.Yaml.Read — the value of a YAML text.

A scalar has the value that its tag and its way of writing give it, a collection that of its parts.  A
reference has the value of the node it stands for.  Collections may be nested 128 deep, and references
may be followed a hundred times for each event of the document, so that a short text cannot stand for
a value without bounds.  `Value.ofText` is the whole reader.
-/
import ConfigDrive.Yaml.Document
import ConfigDrive.Yaml.Plain

namespace ConfigDrive.Yaml

/-! ## Scalars -/

/-- The tag of YAML's own types with this name. -/
def coreTag (name : String) : TagText :=
  Text.Utf8.encode ("tag:yaml.org,2002:" ++ name).toList

/-- The tag is local: it begins with the mark `!`. -/
def isLocalTag (tag : TagText) : Bool :=
  tag.head? == some 0x21

/-- A conversion that a tag asks for. -/
def fitted (v : Option Value) : Except ReadError Value :=
  match v with
  | some v => .ok v
  | none => .error .misfitTag

/-- The value of a scalar, its local tag left aside.  Only plain texts are looked at for what they stand
for, unless a tag of YAML's own types asks for a conversion. -/
def scalarValue (tag : Option TagText) (style : ScalarStyle) (text : String) :
    Except ReadError Value :=
  match tag with
  | none => if style = .plain then Plain.value text else .ok (.string text)
  | some tag =>
    if tag = coreTag "bool" then fitted ((Plain.bool? text).map .bool)
    else if tag = coreTag "int" then do fitted ((← Plain.word? text.toList).map .int)
    else if tag = coreTag "float" then fitted ((Plain.float? text.toList).map .float)
    else if tag = coreTag "null" then fitted (if Plain.isNullWord text then some .null else none)
    else if isLocalTag tag && style = .plain then Plain.value text
    else .ok (.string text)

/-- The tag that a value bears: a local one whose bytes are characters. -/
def valueTag? (tag : TagText) : Option Tag :=
  if isLocalTag tag then
    (Text.Utf8.decode? tag).map fun text => Tag.ofText (Tag.ofText (String.ofList text)).name
  else none

/-- The value with a tag on it, if it is one that values bear. -/
def tagValue (tag : Option TagText) (v : Value) : Value :=
  match tag.bind valueTag? with
  | some tag => .tagged tag v
  | none => v

/-! ## Documents -/

/-- Reading with a budget of references that may still be followed. -/
abbrev ReadM :=
  StateT Nat (Except ReadError)

namespace Document

/-- The node that a node stands for.  Following a reference uses up the budget. -/
def follow (d : Document) (n : Node) : ReadM Node :=
  match n with
  | .reference number => do
    match ← get with
    | 0 => throw .tooManyAliases
    | budget + 1 =>
      set budget
      match d.anchored? number with
      | some target => return target
      | none => throw .unknownAlias
  | n => return n

/-- Store an entry whose key must be new. -/
def putNew (entries : List (Value × Value)) (key value : Value) :
    Except ReadError (List (Value × Value)) :=
  if (Entries.get? entries key).isSome then .error .duplicateKey else .ok (entries ++ [(key, value)])

/-- The value of a node, for a bound on the depth of collections. -/
def valueOf (d : Document) : Nat → Node → ReadM Value
  | depth, n => do
    match ← d.follow n with
    | .scalar tag style text => return tagValue tag (← scalarValue tag style text)
    | .sequence tag items =>
      match depth with
      | 0 => throw .tooDeep
      | depth + 1 => return tagValue tag (.sequence (← items.mapM (d.valueOf depth)))
    | .mapping tag entries =>
      match depth with
      | 0 => throw .tooDeep
      | depth + 1 =>
        let entries ← entries.foldlM (fun acc (k, v) => do
          let key ← d.valueOf depth k
          let value ← d.valueOf depth v
          putNew acc key value) []
        return tagValue tag (.mapping entries)
    | .reference _ => throw .unknownAlias

/-- How deep collections may be nested. -/
def depthLimit : Nat :=
  128

/-- How often references of a document may be followed. -/
def budget (d : Document) : Nat :=
  100 * d.events

/-- The value of a document; one without a root is null. -/
def value (d : Document) : Except ReadError Value :=
  match d.root with
  | none => .ok .null
  | some root => do return (← (d.valueOf depthLimit root).run d.budget).1

end Document

/-- The value of a text. -/
def Value.ofText (text : String) : Except ReadError Value := do
  (← Document.ofText text.toList).value

end ConfigDrive.Yaml
