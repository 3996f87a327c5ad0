/-
# ConfigDrive.Proofs.Config.Layers — what a stack of layers amounts to.

A layer is laid over what the earlier ones gave, and the settings are read when all are in place.  This
module shows that the result can be told without merging anything: each single setting has the value that
the last layer gives it, and null gives nothing.

The invariant is that what has been merged so far is always the written form of some settings
(`merge_toValue`).  A layer that is accepted over one configuration has known keys and suitable values, and
so it turns every configuration into a configuration; which settings it changes can be read off the layer
alone.  A run over all layers is an induction on that step.
-/
import ConfigDrive.Config.Load
import ConfigDrive.Proofs.Config.Reading
import Mathlib.Control.Monad.Basic

namespace ConfigDrive.Yaml.Value

/-! ## What a layer gives -/

/-- No value in the value carries a tag. -/
def TagFree (v : Value) : Prop :=
  Everywhere (fun w => w.isTagged = false) v

theorem TagFree.untag {v : Value} (h : v.TagFree) : v.untag = v :=
  untag_eq_self h.top

theorem TagFree.of_get? {entries : List (Value × Value)} (h : (Value.mapping entries).TagFree)
    {key v : Value} (hget : Entries.get? entries key = some v) : v.TagFree := by
  obtain ⟨k, hmem, -⟩ := Entries.exists_mem_of_get? hget
  exact ((everywhere_mapping.mp h).2 _ hmem).2

theorem TagFree.key {entries : List (Value × Value)} (h : (Value.mapping entries).TagFree) :
    ∀ e ∈ entries, e.1.isTagged = false :=
  fun e he => ((everywhere_mapping.mp h).2 e he).1.top

theorem Distinct.of_get? {entries : List (Value × Value)} (h : (Value.mapping entries).Distinct)
    {key v : Value} (hget : Entries.get? entries key = some v) : v.Distinct := by
  obtain ⟨k, hmem, -⟩ := Entries.exists_mem_of_get? hget
  exact ((distinct_mapping.mp h).2 _ hmem).2

/-- The value to which a path of keys leads. -/
def at? : List String → Value → Option Value
  | [], v => some v
  | key :: path, .mapping entries => (Entries.get? entries (.string key)).bind (at? path)
  | _ :: _, _ => none

theorem at?_cons (v : Value) (key : String) (path : List String) :
    v.at? (key :: path) = (v.at? [key]).bind (at? path) := by
  cases v with
  | mapping entries =>
      rw [at?, at?]
      cases Entries.get? entries (.string key) <;> rfl
  | _ => rfl

/-- What a key leads to stands under that key. -/
theorem exists_of_at? {v w : Value} {key : String} (hat : v.at? [key] = some w) :
    ∃ entries, v = .mapping entries ∧ Entries.get? entries (.string key) = some w := by
  cases v with
  | mapping entries =>
      rw [at?, Option.bind_eq_some_iff] at hat
      obtain ⟨u, hget, hu⟩ := hat
      cases hu
      exact ⟨entries, rfl, hget⟩
  | _ => cases hat

theorem TagFree.of_at? {v w : Value} (h : v.TagFree) {key : String} (hat : v.at? [key] = some w) :
    w.TagFree := by
  obtain ⟨entries, rfl, hget⟩ := exists_of_at? hat
  exact h.of_get? hget

theorem Distinct.of_at? {v w : Value} (h : v.Distinct) {key : String} (hat : v.at? [key] = some w) :
    w.Distinct := by
  obtain ⟨entries, rfl, hget⟩ := exists_of_at? hat
  exact h.of_get? hget

/-- The value that is given at the end of a path; null gives none. -/
def given? (path : List String) (v : Value) : Option Value :=
  (v.at? path).filter fun w => !w.isNull

theorem given?_mapping (entries : List (Value × Value)) (key : String) (path : List String) :
    given? (key :: path) (.mapping entries) =
      (Entries.get? entries (.string key)).bind (given? path) := by
  rw [given?, at?]
  cases Entries.get? entries (.string key) <;> rfl

theorem given?_nil {v : Value} (h : v.isNull = false) : given? [] v = some v := by
  simp [given?, at?, h]

end ConfigDrive.Yaml.Value

namespace ConfigDrive.Config

open ConfigDrive.Yaml (Value Entries.get? Entries.put)
open ConfigDrive.Yaml.Value (given? given?_mapping given?_nil)

/-! ## One setting that holds no others -/

/-- Written values are no mappings, and a value without tags that is read is one of them, or null. -/
structure Written {α : Type} (write : α → Value) (read : Value → Except Fault α) : Prop where
  not_mapping : ∀ a, (write a).isMapping = false
  eq_write : ∀ {v a}, v.TagFree → v.isNull = false → read v = .ok a → v = write a

theorem written_text (expected : Expected) : Written .string (valueSource.text expected) where
  not_mapping _ := rfl
  eq_write ht _ h := by
    rw [text_eq_ok_iff, ht.untag] at h
    exact h

theorem written_boolean : Written .bool valueSource.boolean where
  not_mapping _ := rfl
  eq_write ht _ h := by
    rw [boolean_eq_ok_iff, ht.untag] at h
    exact h

theorem eq_map_of_textsFrom {expected : Expected} {items : List Value} {index : Nat}
    {ss : List String} (ht : ∀ v ∈ items, v.TagFree)
    (h : valueSource.textsFrom expected index items = .ok ss) : items = ss.map .string := by
  induction items generalizing index ss with
  | nil =>
      cases h
      rfl
  | cons v rest ih =>
      obtain ⟨s, hs, h⟩ := bind_eq_ok_iff.mp h
      obtain ⟨ss', hrest, h⟩ := bind_eq_ok_iff.mp h
      cases h
      rw [within_eq_ok_iff, text_eq_ok_iff, (ht v (by simp)).untag] at hs
      rw [hs, List.map_cons, ← ih (fun w hw => ht w (List.mem_cons_of_mem _ hw)) hrest]

theorem written_texts (expected : Expected) : Written textsValue (valueSource.texts expected) where
  not_mapping _ := rfl
  eq_write {v ss} ht hnull h := by
    obtain ⟨items, hitems, h⟩ := bind_eq_ok_iff.mp h
    rw [items_eq_ok_iff, ht.untag] at hitems
    rcases hitems with rfl | ⟨rfl, -⟩
    · rw [textsValue, ← eq_map_of_textsFrom (Yaml.Value.everywhere_sequence.mp ht).2 h]
    · cases hnull

/-- Over a written value lies a written value, if the result can be read: the one that the overlay gives,
if it gives any. -/
theorem Written.laid {α σ : Type} {write : α → Value} {read : Value → Except Fault α}
    (hw : Written write read) {o : Option Value} (ht : ∀ v, o = some v → v.TagFree) {a₀ : α}
    {store : σ → α → Except Fault σ} (hput : ∃ s₀ s₁, (read (laid (write a₀) o) >>= store s₀) = .ok s₁)
    (a : α) :
    ∃ b, Config.laid (write a) o = write b ∧ write b = (o.bind (given? [])).getD (write a) := by
  obtain ⟨s₀, s₁, hput⟩ := hput
  obtain ⟨b₀, hread, -⟩ := bind_eq_ok_iff.mp hput
  cases o with
  | none => exact ⟨a, rfl, rfl⟩
  | some v =>
      cases hnull : v.isNull with
      | true =>
          obtain rfl := Value.eq_null_of_isNull hnull
          exact ⟨a, merge_null _, rfl⟩
      | false =>
          have hmap : ∀ a', ((write a').isMapping && v.isMapping) = false := by
            intro a'
            rw [hw.not_mapping, Bool.false_and]
          -- what was read over one value is itself a written one, so it may replace any
          rw [Config.laid, merge_of_not_mapping hnull (hmap a₀)] at hread
          have hv := hw.eq_write (ht v rfl) hnull hread
          refine ⟨b₀, ?_, ?_⟩
          · rw [Config.laid, merge_of_not_mapping hnull (hmap a)]
            exact hv
          · rw [Option.bind_some, given?_nil hnull, Option.getD_some]
            exact hv.symm

/-! ## The settings for the tool -/

/-- **A layer for the tool turns settings into settings**: what is read over one is read over all, and
each setting is the one that the layer gives. -/
theorem merge_downstreamValue {v : Value} (hd : v.Distinct) (ht : v.TagFree) {d₀ d₁ : Downstream}
    (hread : valueSource.readDownstream (merge (downstreamValue d₀) v) = .ok d₁) (d : Downstream) :
    ∃ d', merge (downstreamValue d) v = downstreamValue d' ∧
      ∀ f, downstreamFieldValue d' f = (given? [f.name] v).getD (downstreamFieldValue d f) := by
  obtain ⟨entries, hentries, hread⟩ := bind_eq_ok_iff.mp hread
  rw [entries_eq_ok_iff] at hentries
  cases v with
  | null => exact ⟨d, merge_null _, fun f => rfl⟩
  | mapping overlay =>
      -- whatever lies below, it is merged as a record
      have hmerge : ∀ d, merge (downstreamValue d) (.mapping overlay) =
          .mapping (mergeEntries (DownstreamField.naming.record (downstreamFieldValue d)) overlay) := by
        intro d
        rw [downstreamValue_eq_record, merge]
      rw [hmerge] at hentries
      rcases hentries with hentries | ⟨hentries, -⟩
      · cases hentries
        obtain ⟨hknows, hputs⟩ :=
          of_readEntries_mergeEntries DownstreamField.naming hd ht.key hread
        have htags : ∀ (key : String) w, Entries.get? overlay (.string key) = some w → w.TagFree :=
          fun key w hget => ht.of_get? hget
        -- each setting was read over `d₀`, so it is written over `d`
        obtain ⟨program, lprogram, gprogram⟩ :=
          (written_text .text).laid (htags _) (hputs .program) d.program
        obtain ⟨useNm, luseNm, guseNm⟩ := written_boolean.laid (htags _) (hputs .useNm) d.useNm
        obtain ⟨noDhcpFallback, ldhcp, gdhcp⟩ :=
          written_boolean.laid (htags _) (hputs .noDhcpFallback) d.noDhcpFallback
        obtain ⟨debug, ldebug, gdebug⟩ := written_boolean.laid (htags _) (hputs .debug) d.debug
        obtain ⟨extraArgs, largs, gargs⟩ :=
          (written_texts .text).laid (htags _) (hputs .extraArgs) d.extraArgs
        refine ⟨⟨program, useNm, noDhcpFallback, debug, extraArgs⟩, ?_, fun f => ?_⟩
        · rw [hmerge, DownstreamField.naming.mergeEntries_record hknows
            (Yaml.Value.distinct_mapping.mp hd).1, downstreamValue_eq_record]
          congr 2
          funext f
          cases f with
          | program => exact lprogram
          | useNm => exact luseNm
          | noDhcpFallback => exact ldhcp
          | debug => exact ldebug
          | extraArgs => exact largs
        · rw [given?_mapping]
          cases f with
          | program => exact gprogram
          | useNm => exact guseNm
          | noDhcpFallback => exact gdhcp
          | debug => exact gdebug
          | extraArgs => exact gargs
      · cases hentries
  | tagged tag w => cases ht.top
  | bool | int | float | string | sequence => rcases hentries with h | ⟨h, -⟩ <;> cases h

theorem laid_downstreamValue {o : Option Value} (hd : ∀ v, o = some v → v.Distinct)
    (ht : ∀ v, o = some v → v.TagFree) {d₀ d₁ : Downstream}
    (hread : valueSource.readDownstream (laid (downstreamValue d₀) o) = .ok d₁) (d : Downstream) :
    ∃ d', laid (downstreamValue d) o = downstreamValue d' ∧
      ∀ f, downstreamFieldValue d' f =
        (o.bind (given? [DownstreamField.name f])).getD (downstreamFieldValue d f) := by
  cases o with
  | none => exact ⟨d, rfl, fun f => rfl⟩
  | some v => exact merge_downstreamValue (hd v rfl) (ht v rfl) hread d

/-! ## The settings of a run -/

/-- The settings that hold no others. -/
inductive Leaf
  | mountPoint
  | searchPath
  | blkid
  | mount
  | program
  | useNm
  | noDhcpFallback
  | debug
  | extraArgs
  deriving DecidableEq, Repr

/-- The keys that lead to a setting. -/
def Leaf.path : Leaf → List String
  | .mountPoint => ["mount_point"]
  | .searchPath => ["search_path"]
  | .blkid => ["blkid"]
  | .mount => ["mount"]
  | .program => ["downstream", "program"]
  | .useNm => ["downstream", "use_nm"]
  | .noDhcpFallback => ["downstream", "no_dhcp_fallback"]
  | .debug => ["downstream", "debug"]
  | .extraArgs => ["downstream", "extra_args"]

/-- The value of a setting. -/
def Leaf.value (c : Config) : Leaf → Value
  | .mountPoint => .string c.mountPoint
  | .searchPath => textsValue c.searchPath
  | .blkid => .string c.blkid
  | .mount => .string c.mount
  | .program => .string c.downstream.program
  | .useNm => .bool c.downstream.useNm
  | .noDhcpFallback => .bool c.downstream.noDhcpFallback
  | .debug => .bool c.downstream.debug
  | .extraArgs => textsValue c.downstream.extraArgs

/-- **A layer turns settings into settings.**  What is accepted over one configuration is accepted over
all, and each setting is the one that the layer gives. -/
theorem merge_toValue {v : Value} (hd : v.Distinct) (ht : v.TagFree) {c₀ c₁ : Config}
    (hread : ofValue (merge (toValue c₀) v) = .ok c₁) (c : Config) :
    ∃ c', merge (toValue c) v = toValue c' ∧
      ∀ leaf, Leaf.value c' leaf = (given? leaf.path v).getD (Leaf.value c leaf) := by
  obtain ⟨entries, hentries, hread⟩ := bind_eq_ok_iff.mp hread
  rw [entries_eq_ok_iff] at hentries
  cases v with
  | null =>
      refine ⟨c, merge_null _, fun leaf => ?_⟩
      cases leaf <;> rfl
  | mapping overlay =>
      have hmerge : ∀ c, merge (toValue c) (.mapping overlay) =
          .mapping (mergeEntries (Field.naming.record (fieldValue c)) overlay) := by
        intro c
        rw [toValue_eq_record, merge]
      rw [hmerge] at hentries
      rcases hentries with hentries | ⟨hentries, -⟩
      · cases hentries
        obtain ⟨hknows, hputs⟩ := of_readEntries_mergeEntries Field.naming hd ht.key hread
        have htags : ∀ (key : String) w, Entries.get? overlay (.string key) = some w → w.TagFree :=
          fun key w hget => ht.of_get? hget
        have hdists : ∀ (key : String) w, Entries.get? overlay (.string key) = some w → w.Distinct :=
          fun key w hget => hd.of_get? hget
        obtain ⟨mountPoint, lpoint, gpoint⟩ :=
          (written_text .path).laid (htags _) (hputs .mountPoint) c.mountPoint
        obtain ⟨searchPath, lsearch, gsearch⟩ :=
          (written_texts .path).laid (htags _) (hputs .searchPath) c.searchPath
        obtain ⟨blkid, lblkid, gblkid⟩ := (written_text .text).laid (htags _) (hputs .blkid) c.blkid
        obtain ⟨mount, lmount, gmount⟩ := (written_text .text).laid (htags _) (hputs .mount) c.mount
        -- the settings for the tool are a record of their own
        obtain ⟨_, _, hput⟩ := hputs .downstream
        obtain ⟨d₁, htool, -⟩ := bind_eq_ok_iff.mp hput
        obtain ⟨downstream, ltool, gtool⟩ :=
          laid_downstreamValue (hdists _) (htags _) htool c.downstream
        refine ⟨⟨mountPoint, searchPath, blkid, mount, downstream⟩, ?_, fun leaf => ?_⟩
        · rw [hmerge, Field.naming.mergeEntries_record hknows (Yaml.Value.distinct_mapping.mp hd).1,
            toValue_eq_record]
          congr 2
          funext f
          cases f with
          | mountPoint => exact lpoint
          | searchPath => exact lsearch
          | blkid => exact lblkid
          | mount => exact lmount
          | downstream => exact ltool
        · cases leaf <;> rw [Leaf.path, given?_mapping]
          case mountPoint => exact gpoint
          case searchPath => exact gsearch
          case blkid => exact gblkid
          case mount => exact gmount
          case program => exact gtool .program
          case useNm => exact gtool .useNm
          case noDhcpFallback => exact gtool .noDhcpFallback
          case debug => exact gtool .debug
          case extraArgs => exact gtool .extraArgs
      · cases hentries
  | tagged tag w => cases ht.top
  | bool | int | float | string | sequence => rcases hentries with h | ⟨h, -⟩ <;> cases h

/-! ## A stack of layers -/

/-- What the last layer gives, below a layer that is put under all others. -/
theorem getLast?_filterMap_cons {α β : Type} (give : α → Option β) (a : α) (rest : List α) (b : β) :
    ((a :: rest).filterMap give).getLast?.getD b =
      (rest.filterMap give).getLast?.getD ((give a).getD b) := by
  cases h : give a with
  | none => simp [h]
  | some w => simp [h, List.getLast?_cons]

theorem mergeAll_toValue (c : Config) (layers : List Value) :
    mergeAll (toValue c :: layers) = layers.foldl merge (toValue c) :=
  rfl

/-- **Layers turn settings into settings**, and each setting is the one that the last layer gives. -/
theorem foldl_merge_toValue {layers : List Value} (hd : ∀ v ∈ layers, v.Distinct)
    (ht : ∀ v ∈ layers, v.TagFree)
    (hok : ∀ v ∈ layers, ∃ d, ofValue (mergeAll [toValue default, v]) = .ok d) (c : Config) :
    ∃ d, layers.foldl merge (toValue c) = toValue d ∧
      ∀ leaf, Leaf.value d leaf =
        (layers.filterMap (given? leaf.path)).getLast?.getD (Leaf.value c leaf) := by
  -- the invariant is that what is merged so far is written from a configuration
  induction layers generalizing c with
  | nil => exact ⟨c, rfl, fun leaf => rfl⟩
  | cons v rest ih =>
      obtain ⟨hdv, hdrest⟩ := List.forall_mem_cons.mp hd
      obtain ⟨htv, htrest⟩ := List.forall_mem_cons.mp ht
      obtain ⟨⟨d₀, hv⟩, hokrest⟩ := List.forall_mem_cons.mp hok
      obtain ⟨c', hmerge, hc'⟩ := merge_toValue hdv htv hv c
      obtain ⟨d, hfold, hd'⟩ := ih hdrest htrest hokrest c'
      refine ⟨d, ?_, fun leaf => ?_⟩
      · rw [List.foldl_cons, hmerge]
        exact hfold
      · rw [getLast?_filterMap_cons, ← hc']
        exact hd' leaf

/-- **Layers compose setting by setting.**  Layers without tags, each accepted over the defaults, are
accepted together over any configuration; each setting has the value of the last layer that gives it one,
lists as a whole, and that of the configuration if none does.  No mapping in a layer repeats a key; no
value that is read from a text does. -/
theorem ofValue_mergeAll_layers (c : Config) {layers : List Value} (hd : ∀ v ∈ layers, v.Distinct)
    (ht : ∀ v ∈ layers, v.TagFree)
    (hok : ∀ v ∈ layers, ∃ d, ofValue (mergeAll [toValue default, v]) = .ok d) :
    ∃ d, ofValue (mergeAll (toValue c :: layers)) = .ok d ∧
      (∀ leaf, Leaf.value d leaf =
        (layers.filterMap (given? leaf.path)).getLast?.getD (Leaf.value c leaf)) ∧
      (layers = [] → d = c) := by
  obtain ⟨d, hfold, hleaf⟩ := foldl_merge_toValue hd ht hok c
  have hread : ofValue (mergeAll (toValue c :: layers)) = .ok d := by
    rw [mergeAll_toValue, hfold, ofValue_toValue]
  refine ⟨d, hread, hleaf, ?_⟩
  rintro rfl
  rw [mergeAll_toValue, List.foldl_nil, ofValue_toValue] at hread
  exact (Except.ok.inj hread).symm

/-- A layer with a list and settings for the tool, an empty one, and one that gives the list and one of
these settings again. -/
def sampleLayers : List Value :=
  [.mapping [
      (.string "search_path", textsValue ["/opt/bin"]),
      (.string "downstream",
        .mapping [(.string "program", .string "cloud-init"), (.string "use_nm", .bool true)])],
    .null,
    .mapping [
      (.string "downstream", .mapping [(.string "program", .string "glean"), (.string "use_nm", .null)]),
      (.string "search_path", textsValue ["/bin", "/sbin"])]]

/-- The last list counts as a whole, and null takes nothing back. -/
theorem sampleLayers_compose :
    ∃ d, ofValue (mergeAll (toValue default :: sampleLayers)) = .ok d ∧
      Leaf.value d .searchPath = textsValue ["/bin", "/sbin"] ∧
      Leaf.value d .program = .string "glean" ∧ Leaf.value d .useNm = .bool true ∧
      Leaf.value d .blkid = .string "blkid" := by
  have hd : ∀ v ∈ sampleLayers, v.Distinct := by
    simp [sampleLayers, textsValue, Yaml.Value.Distinct, Yaml.Value.Everywhere,
      Yaml.Value.EverywhereItems, Yaml.Value.EverywhereEntries, Yaml.Value.KeysDistinct,
      Yaml.Entries.Distinct, Value.same]
  have ht : ∀ v ∈ sampleLayers, v.TagFree := by
    simp [sampleLayers, textsValue, Yaml.Value.TagFree, Yaml.Value.Everywhere,
      Yaml.Value.EverywhereItems, Yaml.Value.EverywhereEntries, Value.isTagged]
  have hok : ∀ v ∈ sampleLayers, ∃ d, ofValue (mergeAll [toValue default, v]) = .ok d := by
    have hread : ∀ v ∈ sampleLayers,
        (ofValue (mergeAll [toValue default, v])).toOption.isSome = true := by
      decide +kernel
    intro v hv
    cases h : ofValue (mergeAll [toValue default, v]) with
    | ok d => exact ⟨d, rfl⟩
    | error e => exact absurd (hread v hv) (by rw [h]; exact Bool.false_ne_true)
  obtain ⟨d, hread, hleaf, -⟩ := ofValue_mergeAll_layers default hd ht hok
  exact ⟨d, hread, hleaf .searchPath, hleaf .program, hleaf .useNm, hleaf .blkid⟩

end ConfigDrive.Config
