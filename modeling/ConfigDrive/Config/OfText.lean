/-
# ConfigDrive.Config.OfText — settings straight from YAML text.

Read this way, a setting that is a text takes the text of any scalar as it is written, so a number or
the word for null is a text too.  A truth value must be written plainly, and only an empty plain scalar
stands for an empty mapping or list.  A text that is no YAML value is refused as such, unless its
settings could be read all the same.
-/
import ConfigDrive.Config.Source
import ConfigDrive.Yaml.Read

namespace ConfigDrive.Config

open ConfigDrive.Yaml

/-! ## Nodes as a source -/

/-- The node that a node stands for.  What a reference stands for is never one itself. -/
def target (d : Document) (n : Node) : Node :=
  match n with
  | .reference number => (d.anchored? number).getD .absent
  | n => n

/-- The type of a node.  A scalar that does not fit its tag is described by its text. -/
def foundNode : Node → Found
  | .scalar tag style text =>
    match scalarValue tag style text with
    | .ok v => .ofValue v
    | .error _ => .text text
  | .sequence _ _ => .sequence
  | .mapping _ _ => .mapping
  | .reference _ => .unit

/-- A node of the wrong type. -/
def misfitNode (n : Node) (expected : Expected) : Fault :=
  .here (.invalidType (foundNode n) expected)

/-- A scalar whose text may be taken for a truth value: a plain one, or a literal one that is tagged as
a truth value. -/
def mayBeBoolean (tag : Option TagText) (style : ScalarStyle) : Bool :=
  style == .plain || (style == .literal && tag == some (coreTag "bool"))

/-- The truth value that a scalar is taken for. -/
def nodeBoolean? : Node → Option Bool
  | .scalar tag style text => if mayBeBoolean tag style then Plain.bool? text else none
  | _ => none

/-- An empty plain scalar. -/
def isEmptyPlain : Node → Bool
  | .scalar _ .plain text => text.isEmpty
  | _ => false

/-- The nodes of a document as a source of settings. -/
def nodeSource (d : Document) : Source Node where
  text expected n :=
    match target d n with
    | .scalar _ _ text => .ok text
    | n => .error (misfitNode n expected)
  boolean n :=
    match nodeBoolean? (target d n) with
    | some b => .ok b
    | none => .error (misfitNode (target d n) .boolean)
  items n :=
    match target d n with
    | .sequence _ items => .ok items
    | n => if isEmptyPlain n then .ok [] else .error (misfitNode n .sequence)
  entries expected n :=
    match target d n with
    | .mapping _ entries => .ok entries
    | n => if isEmptyPlain n then .ok [] else .error (misfitNode n expected)
  step key name :=
    match key with
    | .scalar _ _ _ => .field name
    | _ => .unnamed

/-! ## Texts -/

/-- Why a text gives no settings. -/
inductive TextFault
  | unreadable (e : ReadError)
  | fault (f : Fault)
  deriving DecidableEq, Repr

/-- The settings that a document gives; one without a root gives none. -/
def ofDocument (d : Document) : Except Fault Config :=
  match d.root with
  | some root => (nodeSource d).readConfig root
  | none => .ok default

/-- The settings that a text gives. -/
def ofText (text : String) : Except TextFault Config :=
  match Document.ofText text.toList with
  | .error e => .error (.unreadable e)
  | .ok d =>
    match ofDocument d, d.value with
    | .ok c, _ => .ok c
    | .error _, .error e => .error (.unreadable e)
    | .error f, .ok _ => .error (.fault f)

end ConfigDrive.Config
