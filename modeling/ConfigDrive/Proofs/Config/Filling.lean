/-
# ConfigDrive.Proofs.Config.Filling — two ways to fill in what is not given.

Settings that a value does not give have their defaults.  There are two ways to get there.  The reader
starts from the defaults and changes what is given; or the defaults are written out, the value is laid over
them, and the reader finds every setting in the result.  Null tells them apart, since a merge takes it for
nothing and the reader for an empty list or mapping; so do keys with tags, which are new keys to a merge
and known ones to the reader.  Without these, both ways give the same configuration, and one is refused
exactly if the other is (`ofValue_merge_default`).

Nothing is assumed of the values that the keys have.  A mapping with a tag is not merged but put in the
place of the defaults, which then are filled in by the reader.
-/
import ConfigDrive.Proofs.Config.Determining

namespace ConfigDrive.Config

open ConfigDrive.Yaml (Value)
open ConfigDrive.Yaml.Entries (get? keys)

/-- No entry of the value, if it is a mapping, is null. -/
def NoNullEntry : Value → Prop
  | .mapping entries => ∀ e ∈ entries, e.2 ≠ .null
  | _ => True

/-! ## Any collection of settings -/

namespace Settings

variable {φ σ : Type} [DecidableEq φ] {S : Settings φ σ} {s : σ}

/-- A value given for a setting is read alike by itself and over the value at the start. -/
def Unmoved (S : Settings φ σ) (f : φ) (w : Value) : Prop :=
  ∀ x, S.Puts valueSource f (merge (S.shown S.start f) w) x ↔ S.Puts valueSource f w x

omit [DecidableEq φ] in
/-- What is neither null nor laid over a mapping replaces the value at the start. -/
theorem unmoved_of_not_mapping {f : φ} {w : Value} (hnull : w ≠ .null)
    (hmaps : ((S.shown S.start f).isMapping && w.isMapping) = false) : S.Unmoved f w := by
  have hw : w.isNull = false := by
    cases w with
    | null => exact absurd rfl hnull
    | _ => rfl
  intro x
  rw [merge_of_not_mapping hw hmaps]

/-- Entries are read from the start as they are read over the settings at the start. -/
theorem Sound.read_mapping_over_start (hS : S.Sound)
    (hstart : ∀ f, Fits (S.put valueSource) f (S.shown S.start f)) {overlay : List (Value × Value)}
    (hd : (Value.mapping overlay).Distinct) (huntagged : ∀ e ∈ overlay, e.1.isTagged = false)
    (hpart : ∀ e ∈ overlay, ∀ f, e.1 = .string (S.naming.name f) → S.Unmoved f e.2) :
    S.read valueSource (.mapping overlay) = .ok s ↔
      S.read valueSource (merge (.mapping (S.naming.record (S.shown S.start))) (.mapping overlay)) =
        .ok s := by
  have hdistinct := (Value.distinct_mapping.mp hd).1
  rw [merge_mapping]
  show valueSource.readEntries _ _ _ _ _ overlay = _ ↔ valueSource.readEntries _ _ _ _ _ _ = _
  -- whichever is read, the keys name settings; then each setting may be looked at by itself
  have hkeywise : S.naming.Knows overlay →
      (valueSource.readEntries S.naming.all S.naming.name (S.put valueSource) [] S.start overlay =
          .ok s ↔
        valueSource.readEntries S.naming.all S.naming.name (S.put valueSource) [] S.start
          (mergeEntries (S.naming.record (S.shown S.start)) overlay) = .ok s) := by
    intro hknows
    rw [S.naming.mergeEntries_record hknows hdistinct, hS.readEntries_known hknows hdistinct,
      hS.readEntries_known (S.naming.knows_record _) (S.naming.distinct_record _)]
    apply forall_congr'
    intro f
    rw [S.naming.get?_record]
    cases hget : get? overlay (.string (S.naming.name f)) with
    | none => exact (becomes_shown hstart f _ _).symm
    | some w =>
        obtain ⟨k, hmem, hsame⟩ := Yaml.Entries.exists_mem_of_get? hget
        exact (hpart (k, w) hmem f (Value.string_same_iff.mp hsame) _).symm
  constructor
  · intro h
    refine (hkeywise fun e he => ?_).mp h
    obtain ⟨f, hf, -⟩ := exists_of_readEntries S.naming h e he
    rw [Value.untag_eq_self (huntagged e he)] at hf
    exact ⟨f, hf⟩
  · intro h
    exact (hkeywise (of_readEntries_mergeEntries S.naming hd huntagged h).1).mpr h

/-- **A value is read from the start as it is read over the settings at the start**, if what it gives for
each setting is. -/
theorem Sound.read_over_start (hS : S.Sound)
    (hstart : ∀ f, Fits (S.put valueSource) f (S.shown S.start f)) {v : Value} (hd : v.Distinct)
    (hplain : v.PlainKeys)
    (hpart : ∀ entries, v = .mapping entries → ∀ e ∈ entries, ∀ f,
      e.1 = .string (S.naming.name f) → S.Unmoved f e.2) :
    S.read valueSource v = .ok s ↔
      S.read valueSource (merge (.mapping (S.naming.record (S.shown S.start))) v) = .ok s := by
  cases hmapping : v.isMapping with
  | true =>
      obtain ⟨entries, rfl⟩ := Value.exists_of_isMapping hmapping
      exact hS.read_mapping_over_start hstart hd hplain.top (hpart entries rfl)
  | false =>
      rcases merge_of_not_isMapping hmapping (.mapping (S.naming.record (S.shown S.start))) with
        ⟨rfl, hmerge⟩ | ⟨-, hmerge⟩
      · -- to the reader null is an empty mapping, and that gives nothing either
        have hempty : (Value.mapping []).Distinct := Value.distinct_mapping.mpr ⟨trivial, by simp⟩
        have hread := hS.read_mapping_over_start (s := s) hstart hempty (by simp) (by simp)
        rw [merge_mapping, mergeEntries] at hread
        rw [hmerge]
        exact hread
      · rw [hmerge]

end Settings

/-! ## The two collections -/

/-- Settings for the tool are read alike by themselves and over their defaults. -/
theorem readDownstream_over_default {v : Value} (hd : v.Distinct) (hplain : v.PlainKeys)
    (hnull : NoNullEntry v) (d : Downstream) :
    valueSource.readDownstream v = .ok d ↔
      valueSource.readDownstream (merge (downstreamValue {}) v) = .ok d := by
  refine sound_downstream.read_over_start (fits_downstreamFieldValue {}) hd hplain ?_
  rintro entries rfl e he f -
  refine Settings.unmoved_of_not_mapping (hnull e he) ?_
  cases f <;> rfl

/-- **Laying a value over the defaults and filling in the defaults are the same.**  If no key of a value
carries a tag, and no entry is null in the value or in what it gives for the tool, then the value is
accepted if and only if it is accepted when it is laid over the written defaults, and both give the same
configuration. -/
theorem ofValue_merge_default {v : Value} (hd : v.Distinct) (hplain : v.PlainKeys)
    (htop : NoNullEntry v) (htool : ∀ w, v.at? ["downstream"] = some w → NoNullEntry w) (c : Config) :
    ofValue v = .ok c ↔ ofValue (merge (toValue default) v) = .ok c := by
  refine sound_run.read_over_start (fits_fieldValue {}) hd hplain ?_
  rintro entries rfl e he f hkey
  by_cases hf : f = .downstream
  · subst hf
    obtain ⟨hdistinct, hparts⟩ := Value.distinct_mapping.mp hd
    have hpplain := ((Value.everywhere_mapping.mp hplain).2 e he).2
    have hat : (Value.mapping entries).at? ["downstream"] = some e.2 := by
      have hget := Yaml.Entries.get?_string_of_eq hdistinct he hkey
      exact (congrArg (·.bind (Value.at? [])) hget).trans rfl
    have hread := readDownstream_over_default (hparts e he).2 hpplain (htool e.2 hat)
    intro x
    rw [puts_downstream_iff, puts_downstream_iff]
    exact exists_congr fun d => and_congr_left' (hread d).symm
  · refine Settings.unmoved_of_not_mapping (htop e he) ?_
    cases f <;> first | rfl | exact absurd rfl hf

/-- A value with a tagged mapping for the tool, in which a list is null, and a list with a tag on one of
its texts. -/
def samplePartial : Value :=
  .mapping [
    (.string "downstream", .tagged ⟨"t"⟩ (.mapping [
      (.string "extra_args", .null), (.string "program", .string "cloud-init")])),
    (.string "search_path", .sequence [.tagged ⟨"s"⟩ (.string "/opt/bin"), .string "/bin"])]

/-- Over the written defaults the sample gives what it gives by itself. -/
theorem samplePartial_filled :
    samplePartial.Distinct ∧ samplePartial.PlainKeys ∧ NoNullEntry samplePartial ∧
      (∀ w, samplePartial.at? ["downstream"] = some w → NoNullEntry w) ∧
      ofValue (merge (toValue default) samplePartial) =
        .ok { searchPath := ["/opt/bin", "/bin"], downstream := { program := "cloud-init" } } := by
  have hd : samplePartial.Distinct := by
    simp [samplePartial, Value.Distinct, Value.Everywhere, Value.EverywhereItems,
      Value.EverywhereEntries, Value.KeysDistinct, Yaml.Entries.Distinct, Value.same]
  have hplain : samplePartial.PlainKeys := by
    simp [samplePartial, Value.PlainKeys, Value.Everywhere, Value.EverywhereItems,
      Value.EverywhereEntries, Value.KeysUntagged, Value.isTagged]
  have htop : NoNullEntry samplePartial := by
    simp [samplePartial, NoNullEntry]
  have htool : ∀ w, samplePartial.at? ["downstream"] = some w → NoNullEntry w := by
    intro w hw
    cases hw
    trivial
  exact ⟨hd, hplain, htop, htool, (ofValue_merge_default hd hplain htop htool _).mp rfl⟩

end ConfigDrive.Config
