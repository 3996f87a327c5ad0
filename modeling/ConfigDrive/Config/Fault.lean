/-
# ConfigDrive.Config.Fault — what can be wrong with a configuration.

A fault has a cause and a place.  The cause is a value of the wrong type, a key that names no setting,
or a setting that is given twice; the place is the way from the whole configuration to the value or
mapping in which the cause was found.
-/
import ConfigDrive.Yaml.Value
import ConfigDrive.Decimal.Shortest
import ConfigDrive.Text.Quoted

namespace ConfigDrive.Config

open ConfigDrive.Yaml (Value)
open ConfigDrive.Decimal (Binary64)

/-! ## Causes -/

/-- The type of a value that was found. -/
inductive Found
  | unit
  | boolean (b : Bool)
  | integer (n : Int)
  | floating (x : Binary64)
  | text (s : String)
  | sequence
  | mapping
  deriving DecidableEq, Repr

/-- The type of value that a setting has, or a mapping's key. -/
inductive Expected
  | config
  | downstream
  | sequence
  | text
  | path
  | boolean
  | key
  deriving DecidableEq, Repr

/-- Why a configuration is refused. -/
inductive Cause
  | invalidType (found : Found) (expected : Expected)
  | unknownField (name : String) (known : List String)
  | duplicateField (name : String)
  deriving DecidableEq, Repr

/-- The type of a value. -/
def Found.ofValue : Value → Found
  | .null => .unit
  | .bool b => .boolean b
  | .int n => .integer n
  | .float x => .floating x
  | .string s => .text s
  | .sequence _ => .sequence
  | .mapping _ => .mapping
  | .tagged _ v => ofValue v

/-- The words for a value that was found. -/
def Found.message : Found → String
  | .unit => "unit value"
  | .boolean b => "boolean `" ++ toString b ++ "`"
  | .integer n => "integer `" ++ toString n ++ "`"
  | .floating x => "floating point `" ++ x.text ++ "`"
  | .text s => "string " ++ Text.quoted s
  | .sequence => "sequence"
  | .mapping => "map"

/-- The words for what was expected. -/
def Expected.message : Expected → String
  | .config => "struct WrapperConfig"
  | .downstream => "struct DownstreamConfig"
  | .sequence => "a sequence"
  | .text => "a string"
  | .path => "path string"
  | .boolean => "a boolean"
  | .key => "field identifier"

/-- A name as messages show it. -/
def ticked (name : String) : String :=
  "`" ++ name ++ "`"

/-- The words for a cause. -/
def Cause.message : Cause → String
  | .invalidType found expected =>
    "invalid type: " ++ found.message ++ ", expected " ++ expected.message
  | .unknownField name known =>
    "unknown field " ++ ticked name ++ ", expected one of " ++ ", ".intercalate (known.map ticked)
  | .duplicateField name => "duplicate field " ++ ticked name

/-! ## Places -/

/-- A step from a mapping or sequence to one of its values.  The value of a key that is not written as
such is at a step without a name. -/
inductive Step
  | field (name : String)
  | item (index : Nat)
  | unnamed
  deriving DecidableEq, Repr

/-- A cause and the way to its place, from the outside in. -/
structure Fault where
  place : List Step
  cause : Cause
  deriving DecidableEq, Repr

/-- The text of a place reached from the one with the text `outer`. -/
def Step.extend (outer : String) (s : Step) : String :=
  let dotted := if outer.isEmpty then "" else outer ++ "."
  match s with
  | .field name => dotted ++ name
  | .item index => outer ++ "[" ++ toString index ++ "]"
  | .unnamed => dotted ++ "?"

namespace Fault

/-- A fault at the place where reading is. -/
def here (cause : Cause) : Fault :=
  ⟨[], cause⟩

/-- The fault, seen from one step further out. -/
def under (s : Step) (f : Fault) : Fault :=
  { f with place := s :: f.place }

/-- The text of the place. -/
def placeText (f : Fault) : String :=
  f.place.foldl Step.extend ""

/-- The cause, with its place in front unless that is the whole configuration. -/
def message (f : Fault) : String :=
  if f.placeText.isEmpty then f.cause.message else f.placeText ++ ": " ++ f.cause.message

end Fault

/-- Read the value at a step; a fault in it lies under that step. -/
def within {α : Type} (s : Step) (r : Except Fault α) : Except Fault α :=
  match r with
  | .ok a => .ok a
  | .error f => .error (f.under s)

end ConfigDrive.Config
