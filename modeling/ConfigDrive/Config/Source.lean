/-
# ConfigDrive.Config.Source — reading the settings from what they are written in.

A configuration is read alike from a YAML value and from the nodes of a YAML text; the two differ only
in what they take for a text, a truth value, a list or a mapping.  A `Source` holds these four answers.
`Source.readConfig` goes through the entries of a mapping in their order and stops at the first fault:
a key that is no text, names no setting or comes twice, or a value of the wrong type.  Settings that
are not given keep their defaults.
-/
import ConfigDrive.Config
import ConfigDrive.Config.Fault

namespace ConfigDrive.Config

/-! ## Settings and their names -/

/-- The settings of a run. -/
inductive Field
  | mountPoint
  | searchPath
  | blkid
  | mount
  | downstream
  deriving DecidableEq, Repr

/-- The settings for the tool. -/
inductive DownstreamField
  | program
  | useNm
  | noDhcpFallback
  | debug
  | extraArgs
  deriving DecidableEq, Repr

/-- The key of a setting of a run. -/
def Field.name : Field → String
  | .mountPoint => "mount_point"
  | .searchPath => "search_path"
  | .blkid => "blkid"
  | .mount => "mount"
  | .downstream => "downstream"

/-- The key of a setting for the tool. -/
def DownstreamField.name : DownstreamField → String
  | .program => "program"
  | .useNm => "use_nm"
  | .noDhcpFallback => "no_dhcp_fallback"
  | .debug => "debug"
  | .extraArgs => "extra_args"

/-- All settings of a run, in the order in which messages name them. -/
def Field.all : List Field :=
  [.mountPoint, .searchPath, .blkid, .mount, .downstream]

/-- All settings for the tool, in the order in which messages name them. -/
def DownstreamField.all : List DownstreamField :=
  [.program, .useNm, .noDhcpFallback, .debug, .extraArgs]

/-! ## Sources -/

/-- How settings are found in things of type `α`: a text, a truth value, the items of a list and the
entries of a mapping, or a fault if there is none; and the step to the value of a key. -/
structure Source (α : Type) where
  text : Expected → α → Except Fault String
  boolean : α → Except Fault Bool
  items : α → Except Fault (List α)
  entries : Expected → α → Except Fault (List (α × α))
  step : α → String → Step

namespace Source

variable {α : Type} (src : Source α)

/-- The texts of a list, counted from `index`. -/
def textsFrom (expected : Expected) (index : Nat) : List α → Except Fault (List String)
  | [] => .ok []
  | a :: rest => do
    let s ← within (.item index) (src.text expected a)
    return s :: (← textsFrom expected (index + 1) rest)

/-- The texts of a list. -/
def texts (expected : Expected) (a : α) : Except Fault (List String) := do
  src.textsFrom expected 0 (← src.items a)

/-- The setting that a key names, which must be known and new. -/
def newField {φ : Type} [DecidableEq φ] (all : List φ) (name : φ → String) (seen : List φ)
    (key : String) : Except Fault φ :=
  match all.find? (name · == key) with
  | none => .error (.here (.unknownField key (all.map name)))
  | some f => if seen.contains f then .error (.here (.duplicateField key)) else .ok f

/-- Read the entries of a mapping one after the other into `s`. -/
def readEntries {φ σ : Type} [DecidableEq φ] (all : List φ) (name : φ → String)
    (put : φ → α → σ → Except Fault σ) : List φ → σ → List (α × α) → Except Fault σ
  | _, s, [] => .ok s
  | seen, s, (k, v) :: rest => do
    let key ← src.text .key k
    let f ← newField all name seen key
    let s ← within (src.step k key) (put f v s)
    readEntries all name put (f :: seen) s rest

/-- Read a setting for the tool. -/
def putDownstream (f : DownstreamField) (a : α) (d : Downstream) : Except Fault Downstream := do
  match f with
  | .program => return { d with program := ← src.text .text a }
  | .useNm => return { d with useNm := ← src.boolean a }
  | .noDhcpFallback => return { d with noDhcpFallback := ← src.boolean a }
  | .debug => return { d with debug := ← src.boolean a }
  | .extraArgs => return { d with extraArgs := ← src.texts .text a }

/-- Read the settings for the tool. -/
def readDownstream (a : α) : Except Fault Downstream := do
  let entries ← src.entries .downstream a
  src.readEntries DownstreamField.all DownstreamField.name src.putDownstream [] {} entries

/-- Read a setting of a run. -/
def putField (f : Field) (a : α) (c : Config) : Except Fault Config := do
  match f with
  | .mountPoint => return { c with mountPoint := ← src.text .path a }
  | .searchPath => return { c with searchPath := ← src.texts .path a }
  | .blkid => return { c with blkid := ← src.text .text a }
  | .mount => return { c with mount := ← src.text .text a }
  | .downstream => return { c with downstream := ← src.readDownstream a }

/-- Read the settings of a run. -/
def readConfig (a : α) : Except Fault Config := do
  let entries ← src.entries .config a
  src.readEntries Field.all Field.name src.putField [] {} entries

end Source

end ConfigDrive.Config
