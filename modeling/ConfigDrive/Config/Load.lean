/-
# ConfigDrive.Config.Load — the settings of a system.

The settings are the defaults with the main file laid over them, and then every drop-in file in the
order of the file names.  A file or a directory of drop-ins that does not exist is left out; anything
else that prevents reading one of them is an error, and so are settings that are refused in the end.
-/
import ConfigDrive.Config.Merge
import ConfigDrive.Config.OfValue
import ConfigDrive.Host
import ConfigDrive.RunError
import ConfigDrive.Yaml.Read

namespace ConfigDrive.Config

open ConfigDrive.Yaml (Value)

/-- Where the settings are read. -/
structure Loader where
  path : String := "/etc/configdrive/config.yaml"
  skipDropins : Bool := false

namespace Loader

/-- The directory of the drop-ins, next to the main file. -/
def dropinDirectory (l : Loader) : String :=
  Path.join ((Path.parent? l.path).getD "/") "config.d"

/-- The name is that of a drop-in. -/
def isDropin (name : String) : Bool :=
  Path.extension? name == some "yaml" || Path.extension? name == some "yml"

/-- The paths of the drop-ins among the entries of the directory, in the order of their names. -/
def dropinPaths (l : Loader) (names : List String) : List String :=
  ((names.filter isDropin).mergeSort fun a b => decide (a ≤ b)).map (Path.join l.dropinDirectory)

/-- Reading the settings, which may fail. -/
abbrev LoadM (α : Type) :=
  ExceptT RunError (Procedure Host.Question Host.Question.Answer) α

/-- The value of a file, if it exists. -/
def loadFile (path : String) : LoadM (Option Value) := do
  match ← ExceptT.lift (Host.readText path) with
  | .error e => if e.isNotFound then return none else throw (.io e)
  | .ok text =>
    match Value.ofText text with
    | .ok v => return some v
    | .error _ => throw (.config (.unparsable path))

/-- Report a line of the log. -/
def say (level : Log.Level) (message : String) : LoadM Unit :=
  ExceptT.lift (.say level message)

/-- The values of these drop-ins, as far as they exist. -/
def loadFiles : List String → LoadM (List Value)
  | [] => return []
  | path :: paths => do
    match ← loadFile path with
    | none => loadFiles paths
    | some v =>
      say .debug ("Loaded drop-in config from " ++ path)
      return v :: (← loadFiles paths)

/-- The values of all drop-ins. -/
def loadDropins (l : Loader) : LoadM (List Value) := do
  match ← ExceptT.lift (Host.listDirectory l.dropinDirectory) with
  | .error e => if e.isNotFound then return [] else throw (.io e)
  | .ok names =>
    let values ← loadFiles (l.dropinPaths names)
    if !values.isEmpty then
      say .info ("Loaded " ++ toString values.length ++ " drop-in configs")
    return values

/-- The value of the main file, as a list of at most one. -/
def loadMain (l : Loader) : LoadM (List Value) := do
  match ← loadFile l.path with
  | none => return []
  | some v =>
    say .debug ("Loaded config from " ++ l.path)
    return [v]

/-- The settings that layers over the defaults give. -/
def ofLayers (layers : List Value) : Except RunError Config :=
  match ofValue (mergeAll (toValue default :: layers)) with
  | .ok c => .ok c
  | .error f => .error (.config (.invalid f.cause))

/-- Read the settings. -/
def load (l : Loader) : LoadM Config := do
  let main ← loadMain l
  let dropins ← if l.skipDropins then pure [] else loadDropins l
  ExceptT.mk (pure (ofLayers (main ++ dropins)))

end Loader

end ConfigDrive.Config
