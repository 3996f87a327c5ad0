/-
# ConfigDrive.Config.OfValue — settings as YAML values.

`toValue` writes every setting, `ofValue` reads those that are given.  Tags mean nothing to the reader,
and null is an empty mapping or list.  Reading what was written gives the same settings back.
-/
import ConfigDrive.Config.Source

namespace ConfigDrive.Config

open ConfigDrive.Yaml (Value)

/-! ## Writing -/

/-- A list of texts. -/
def textsValue (ss : List String) : Value :=
  .sequence (ss.map .string)

/-- All settings for the tool. -/
def downstreamValue (d : Downstream) : Value :=
  .mapping [
    (.string "program", .string d.program),
    (.string "use_nm", .bool d.useNm),
    (.string "no_dhcp_fallback", .bool d.noDhcpFallback),
    (.string "debug", .bool d.debug),
    (.string "extra_args", textsValue d.extraArgs)]

/-- All settings of a run. -/
def toValue (c : Config) : Value :=
  .mapping [
    (.string "mount_point", .string c.mountPoint),
    (.string "search_path", textsValue c.searchPath),
    (.string "blkid", .string c.blkid),
    (.string "mount", .string c.mount),
    (.string "downstream", downstreamValue c.downstream)]

/-! ## Reading -/

/-- A value of the wrong type. -/
def misfit (v : Value) (expected : Expected) : Fault :=
  .here (.invalidType (.ofValue v) expected)

/-- Values as a source of settings. -/
def valueSource : Source Value where
  text expected v :=
    match v.untag with
    | .string s => .ok s
    | v => .error (misfit v expected)
  boolean v :=
    match v.untag with
    | .bool b => .ok b
    | v => .error (misfit v .boolean)
  items v :=
    match v.untag with
    | .sequence items => .ok items
    | .null => .ok []
    | v => .error (misfit v .sequence)
  entries expected v :=
    match v.untag with
    | .mapping entries => .ok entries
    | .null => .ok []
    | v => .error (misfit v expected)
  step _ name := .field name

/-- The settings that a value gives. -/
def ofValue (v : Value) : Except Fault Config :=
  valueSource.readConfig v

/-- Texts that were written are read back. -/
theorem texts_textsValue (expected : Expected) (ss : List String) :
    valueSource.texts expected (textsValue ss) = .ok ss := by
  have key : ∀ (ss : List String) (i : Nat),
      valueSource.textsFrom expected i (ss.map .string) = .ok ss := by
    intro ss
    induction ss with
    | nil => intro i; rfl
    | cons s ss ih =>
      intro i
      have hs : valueSource.text expected (.string s) = .ok s := rfl
      simp only [List.map_cons, Source.textsFrom, hs, within, ih]
      rfl
  exact key ss 0

end ConfigDrive.Config
