/-
# ConfigDrive.Config.Merge — laying one configuration value over another.

Mappings merge key by key; any other value of the overlay replaces what is under it, lists included.
Null, which is also the value of an empty file, replaces nothing.  Keys of the base keep their place
and spelling, new keys come after them in the order of the overlay.
-/
import ConfigDrive.Yaml.Value

namespace ConfigDrive.Config

open ConfigDrive.Yaml (Value Entries.get? Entries.put)

mutual

/-- A value with another laid over it. -/
def merge (base : Value) : Value → Value
  | .null => base
  | .mapping overlay =>
    match base with
    | .mapping entries => .mapping (mergeEntries entries overlay)
    | _ => .mapping overlay
  | overlay => overlay

/-- Entries with others laid over them, one after the other. -/
def mergeEntries (entries : List (Value × Value)) :
    List (Value × Value) → List (Value × Value)
  | [] => entries
  | (key, value) :: rest =>
    let merged :=
      match Entries.get? entries key with
      | some under => merge under value
      | none => value
    mergeEntries (Entries.put entries key merged) rest

end

/-- Layers laid over each other, the first at the bottom; no layers give null. -/
def mergeAll (layers : List Value) : Value :=
  layers.foldl merge .null

/-- Null over a value leaves it. -/
theorem merge_null (base : Value) : merge base .null = base := by
  simp [merge]

/-- Under a value that is no mapping, or where the overlay is none, the overlay wins unless it is null. -/
theorem merge_of_not_mapping {base overlay : Value} (hnull : overlay.isNull = false)
    (hmap : (base.isMapping && overlay.isMapping) = false) : merge base overlay = overlay := by
  cases overlay <;> cases base <;> simp_all [merge, Value.isNull, Value.isMapping]

/-- A further layer lies over all earlier ones. -/
theorem mergeAll_append (layers : List Value) (v : Value) :
    mergeAll (layers ++ [v]) = merge (mergeAll layers) v := by
  simp [mergeAll]

end ConfigDrive.Config
