/-
# ConfigDrive.Proofs.Config.IdleTags — tags that make no difference to a stack of layers.

The reader looks past tags, and a merge does not: a mapping with a tag is not laid over what is under it, it
takes its place, and so does null with a tag.  All other tags are idle (`eraseIdleTags`): those on keys, on
values that take the place of others anyway, and inside of lists and of values with a tag.  Erasing them
before layers are merged or after that is the same, unless the result has two keys that differ in their tags
only (`mergeAll_map_eraseIdleTags`); and then it is no configuration.

The proof goes down the values key by key.  Of the layers that count, no two keys become the same without
their tags unless they are the same with them, so the keys of the result are found in the same places, and
under each of them stand the same values.
-/
import ConfigDrive.Proofs.Config.Accepting
import ConfigDrive.Proofs.Config.Erasing
import ConfigDrive.Proofs.Config.Projecting

namespace ConfigDrive.Config

open ConfigDrive.Yaml (Value)
open ConfigDrive.Yaml.Entries (get? keys)
open ConfigDrive.Yaml.Value (eraseTags eraseEntry eraseTags_mapping eraseTags_tagged
  distinct_eraseTags_mapping)

/-! ## Idle tags -/

mutual

/-- The value without the tags that make no difference to a merge.  Only mappings and null keep theirs, and
only where they are laid over something: as the value itself, or under the keys of a mapping without a tag. -/
def eraseIdleTags : Value → Value
  | .sequence items => (Value.sequence items).eraseTags
  | .mapping entries => .mapping (eraseIdleEntries entries)
  | .tagged tag v => if blends v.eraseTags then .tagged tag v.eraseTags else v.eraseTags
  | v => v

/-- These entries without tags on keys, and without idle ones in values. -/
def eraseIdleEntries : List (Value × Value) → List (Value × Value)
  | [] => []
  | (k, v) :: es => (k.eraseTags, eraseIdleTags v) :: eraseIdleEntries es

end

/-- An entry without a tag on its key, and without idle ones in its value. -/
def eraseIdleEntry (e : Value × Value) : Value × Value :=
  (e.1.eraseTags, eraseIdleTags e.2)

theorem eraseIdleTags_mapping (entries : List (Value × Value)) :
    eraseIdleTags (.mapping entries) = .mapping (entries.map eraseIdleEntry) := by
  have hentries : eraseIdleEntries entries = entries.map eraseIdleEntry := by
    induction entries with
    | nil => rfl
    | cons e es ih =>
        obtain ⟨k, v⟩ := e
        rw [eraseIdleEntries, ih, List.map_cons, eraseIdleEntry]
  rw [eraseIdleTags, hentries]

/-- Without its idle tags a value is null if it was, and a mapping if it was. -/
theorem kind_eraseIdleTags (v : Value) :
    (eraseIdleTags v).isNull = v.isNull ∧ (eraseIdleTags v).isMapping = v.isMapping := by
  cases v with
  | tagged tag w =>
      rw [eraseIdleTags]
      cases hblend : blends w.eraseTags with
      | true => exact ⟨rfl, rfl⟩
      | false =>
          rw [blends, Bool.or_eq_false_iff] at hblend
          exact hblend
  | _ => exact ⟨rfl, rfl⟩

theorem blends_eraseIdleTags (v : Value) : blends (eraseIdleTags v) = blends v := by
  rw [blends, blends, (kind_eraseIdleTags v).1, (kind_eraseIdleTags v).2]

/-- The tags that are left can be erased as well. -/
theorem eraseTags_eraseIdleTags (v : Value) : (eraseIdleTags v).eraseTags = v.eraseTags := by
  induction v using Value.mapping_induction with
  | mapping entries ih =>
      rw [eraseIdleTags_mapping, eraseTags_mapping, eraseTags_mapping, List.map_map]
      congr 1
      refine List.map_congr_left fun e he => ?_
      have hkey := e.1.tagFree_eraseTags.eraseTags_eq
      rw [Function.comp_apply, eraseIdleEntry, eraseEntry, eraseEntry, hkey, ih e he]
  | other v hv =>
      have htwice := v.tagFree_eraseTags.eraseTags_eq
      cases v with
      | mapping entries => cases hv
      | sequence items => exact htwice
      | tagged tag w =>
          rw [eraseTags_tagged] at htwice ⊢
          rw [eraseIdleTags]
          split
          · rw [eraseTags_tagged, htwice]
          · exact htwice
      | _ => rfl

theorem distinct_eraseIdleTags {v : Value} (h : v.eraseTags.Distinct) :
    (eraseIdleTags v).Distinct :=
  Value.Distinct.of_eraseTags (by rwa [eraseTags_eraseIdleTags])

/-! ## What kind of value a stack gives -/

/-- Whether a stack gives a mapping does not depend on idle tags. -/
theorem isMapping_mergeAll_eraseIdleTags (layers : List Value) :
    (mergeAll (layers.map eraseIdleTags)).isMapping = (mergeAll layers).isMapping := by
  induction layers using List.reverseRecOn with
  | nil => rfl
  | append_singleton layers v ih =>
      obtain ⟨hnull, hmapping⟩ := kind_eraseIdleTags v
      rw [List.map_append, List.map_singleton, mergeAll_append, mergeAll_append, isMapping_merge,
        isMapping_merge, hnull, hmapping, ih]

/-- What a stack gives that gives no mapping is one of its layers, with or without idle tags. -/
theorem mergeAll_eraseIdleTags_of_not_mapping {layers : List Value}
    (h : (mergeAll layers).isMapping = false) :
    mergeAll (layers.map eraseIdleTags) = eraseIdleTags (mergeAll layers) := by
  induction layers using List.reverseRecOn with
  | nil => rfl
  | append_singleton layers v ih =>
      rw [List.map_append, List.map_singleton, mergeAll_append, mergeAll_append]
      rw [mergeAll_append] at h
      obtain ⟨hnull, hmapping⟩ := kind_eraseIdleTags v
      cases hv : v.isNull with
      | true =>
          obtain rfl := Value.eq_null_of_isNull hv
          rw [merge_null] at h ⊢
          exact ih h
      | false =>
          -- the layer takes the place of all that is under it
          rw [isMapping_merge, hv, if_neg Bool.false_ne_true] at h
          rw [merge_of_not_mapping hv (by rw [h, Bool.and_false]),
            merge_of_not_mapping (hnull.trans hv) (by rw [hmapping, h, Bool.and_false])]

/-! ## Layers key by key -/

theorem upper_eraseIdleTags (layers : List Value) :
    upper (layers.map eraseIdleTags) = (upper layers).map eraseIdleTags := by
  have hblends : blends ∘ eraseIdleTags = blends := funext blends_eraseIdleTags
  rw [upper, upper, List.rtakeWhile, List.rtakeWhile, ← List.map_reverse, List.takeWhile_map, hblends,
    List.map_reverse]

/-- Members with keys of which no two are the same are one if their keys are. -/
theorem eq_of_same_key {α : Type} {key : α → Value} {as : List α}
    (hpairwise : as.Pairwise fun a b => (key a).same (key b) = false)
    (hd : ∀ a ∈ as, (key a).Distinct) {a b : α} (ha : a ∈ as) (hb : b ∈ as)
    (h : (key a).same (key b) = true) : a = b := by
  induction as with
  | nil => cases ha
  | cons c as ih =>
      obtain ⟨hc, hrest⟩ := List.pairwise_cons.mp hpairwise
      rcases List.mem_cons.mp ha with rfl | ha'
      · rcases List.mem_cons.mp hb with rfl | hb'
        · rfl
        · rw [hc b hb'] at h
          cases h
      · rcases List.mem_cons.mp hb with rfl | hb'
        · rw [(hd a ha).same_comm (hd b hb), hc a ha'] at h
          cases h
        · exact ih hrest (fun a ha => hd a (List.mem_cons_of_mem _ ha)) ha' hb'

section Keys

variable {layers : List Value} (hd : ∀ v ∈ layers, v.eraseTags.Distinct)

include hd

/-- The keys of the layers repeat no key in themselves, with or without their tags. -/
theorem distinct_of_mem_layerKeys {k : Value} (h : k ∈ layers.flatMap layerKeys) :
    k.eraseTags.Distinct := by
  obtain ⟨v, hv, hk⟩ := List.mem_flatMap.mp h
  cases v with
  | mapping entries =>
      obtain ⟨e, he, rfl⟩ := List.mem_map.mp hk
      exact ((distinct_eraseTags_mapping.mp (hd _ hv)).2 e he).1
  | _ => cases hk

/-- **No two keys of the layers become the same** without their tags, if no two keys of the result do. -/
theorem Gathered.same_eraseTags {entries : List (Value × Value)} (h : Gathered layers entries)
    (herased : (Value.mapping entries).eraseTags.Distinct) :
    ∀ k ∈ layers.flatMap layerKeys, ∀ l ∈ layers.flatMap layerKeys,
      k.eraseTags.same l.eraseTags = k.same l := by
  have hkey : ∀ k ∈ layers.flatMap layerKeys, k.eraseTags.Distinct :=
    fun k hk => distinct_of_mem_layerKeys hd hk
  obtain ⟨hdistinct, hparts⟩ := distinct_eraseTags_mapping.mp herased
  -- every key has a first occurrence among the keys of the result
  have hfirst : ∀ k ∈ layers.flatMap layerKeys, ∃ e ∈ entries, k.same e.1 = true := by
    intro k hk
    obtain ⟨l, hl, hsame⟩ :=
      exists_mem_eraseDupsBy (fun k hk => (hkey k hk).of_eraseTags.same_refl) hk
    have hmem : l ∈ keys entries := h.keys_eq ▸ hl
    obtain ⟨e, he, rfl⟩ := List.mem_map.mp hmem
    exact ⟨e, he, hsame⟩
  intro k hk l hl
  have hdk := hkey k hk
  have hdl := hkey l hl
  rw [Bool.eq_iff_iff]
  constructor
  · intro hsame
    obtain ⟨e, he, hke⟩ := hfirst k hk
    obtain ⟨f, hf, hlf⟩ := hfirst l hl
    have hde : e.1.eraseTags.Distinct := (hparts e he).1
    have hdf : f.1.eraseTags.Distinct := (hparts f hf).1
    have hef : e.1.eraseTags.same f.1.eraseTags = true := by
      have hek := hdk.same_symm hde (Value.same_eraseTags hdk hde hke)
      have hkf := hdk.same_trans hdl hdf hsame (Value.same_eraseTags hdl hdf hlf)
      exact hde.same_trans hdk hdf hek hkf
    obtain rfl : e = f := eq_of_same_key hdistinct (fun e he => (hparts e he).1) he hf hef
    have hle := hdl.of_eraseTags.same_symm hde.of_eraseTags hlf
    exact hdk.of_eraseTags.same_trans hde.of_eraseTags hdl.of_eraseTags hke hle
  · exact Value.same_eraseTags hdk hdl

end Keys

theorem layerKeys_eraseIdleTags (v : Value) :
    layerKeys (eraseIdleTags v) = (layerKeys v).map eraseTags := by
  cases hv : v.isMapping with
  | true =>
      obtain ⟨entries, rfl⟩ := Value.exists_of_isMapping hv
      rw [eraseIdleTags_mapping, layerKeys, layerKeys, keys, keys, List.map_map, List.map_map]
      rfl
  | false =>
      rw [layerKeys_of_not_isMapping hv,
        layerKeys_of_not_isMapping ((kind_eraseIdleTags v).2.trans hv)]
      rfl

theorem get?_eraseIdleEntry {k : Value} {entries : List (Value × Value)}
    (hkeys : ∀ l ∈ keys entries, k.eraseTags.same l.eraseTags = k.same l) :
    get? (entries.map eraseIdleEntry) k.eraseTags = (get? entries k).map eraseIdleTags := by
  induction entries with
  | nil => rfl
  | cons e es ih =>
      obtain ⟨hhead, hrest⟩ := Yaml.Entries.forall_mem_keys_cons.mp hkeys
      rw [List.map_cons, Yaml.Entries.get?_cons, Yaml.Entries.get?_cons, ih hrest,
        show k.eraseTags.same (eraseIdleEntry e).1 = k.same e.1 from hhead]
      split <;> rfl

/-- What stands under a key stands under it without idle tags, if no other key becomes that one. -/
theorem under?_eraseIdleTags {k v : Value}
    (hkeys : ∀ l ∈ layerKeys v, k.eraseTags.same l.eraseTags = k.same l) :
    under? k.eraseTags (eraseIdleTags v) = (under? k v).map eraseIdleTags := by
  cases hv : v.isMapping with
  | true =>
      obtain ⟨entries, rfl⟩ := Value.exists_of_isMapping hv
      rw [eraseIdleTags_mapping]
      exact get?_eraseIdleEntry hkeys
  | false =>
      rw [under?_of_not_isMapping hv, under?_of_not_isMapping ((kind_eraseIdleTags v).2.trans hv)]
      rfl

/-- **Layers are gathered without idle tags as they are with them**, key by key, if the same holds for what
stands under each key. -/
theorem keywise_eraseIdleTags {layers : List Value}
    (hkeys : ∀ k ∈ layers.flatMap layerKeys, ∀ l ∈ layers.flatMap layerKeys,
      k.eraseTags.same l.eraseTags = k.same l)
    (hvalues : ∀ k ∈ firstKeys layers, mergeAll ((valuesUnder k layers).map eraseIdleTags) =
      eraseIdleTags (mergeAll (valuesUnder k layers))) :
    keywise (layers.map eraseIdleTags) = (keywise layers).map eraseIdleEntry := by
  have hfirst : firstKeys (layers.map eraseIdleTags) = (firstKeys layers).map eraseTags := by
    rw [firstKeys, firstKeys, List.flatMap_map, ← eraseDupsBy_map hkeys, List.map_flatMap]
    simp only [layerKeys_eraseIdleTags]
  rw [keywise, keywise, hfirst, List.map_map, List.map_map]
  refine List.map_congr_left fun k hk => ?_
  have hunder : valuesUnder k.eraseTags (layers.map eraseIdleTags) =
      (valuesUnder k layers).map eraseIdleTags := by
    rw [valuesUnder, valuesUnder, List.filterMap_map, List.map_filterMap]
    refine List.filterMap_congr fun v hv => ?_
    refine under?_eraseIdleTags fun l hl => ?_
    exact hkeys k (mem_of_mem_eraseDupsBy hk) l (List.mem_flatMap.mpr ⟨v, hv, hl⟩)
  rw [Function.comp_apply, Function.comp_apply, hunder, hvalues k hk, eraseIdleEntry]

theorem exists_of_mem_valuesUnder {layers : List Value} {k w : Value} (h : w ∈ valuesUnder k layers) :
    ∃ entries, .mapping entries ∈ layers ∧ ∃ l, (l, w) ∈ entries := by
  obtain ⟨v, hv, hunder⟩ := List.mem_filterMap.mp h
  cases v with
  | mapping entries =>
      obtain ⟨l, hmem, -⟩ := Yaml.Entries.exists_mem_of_get? hunder
      exact ⟨entries, hv, l, hmem⟩
  | _ => cases hunder

/-- **Idle tags may be erased before layers are merged or after that**, if no two keys of the result differ
in their tags only. -/
theorem mergeAll_map_eraseIdleTags {layers : List Value} (hd : ∀ v ∈ layers, v.eraseTags.Distinct)
    (hresult : (mergeAll layers).eraseTags.Distinct) :
    mergeAll (layers.map eraseIdleTags) = eraseIdleTags (mergeAll layers) := by
  obtain ⟨n, hn⟩ : ∃ n, ∀ v ∈ layers, sizeOf v < n :=
    ⟨sizeOf layers, fun v hv => List.sizeOf_lt_of_mem hv⟩
  induction n generalizing layers with
  | zero =>
      cases layers with
      | nil => rfl
      | cons v layers => exact absurd (hn v List.mem_cons_self) (Nat.not_lt_zero _)
  | succ n ih =>
      cases hmapping : (mergeAll layers).isMapping with
      | false => exact mergeAll_eraseIdleTags_of_not_mapping hmapping
      | true =>
          obtain ⟨hgathered, hmerge⟩ :=
            mergeAll_eq_keywise (fun v hv => (hd v hv).of_eraseTags) hmapping
          have hmapping' := hmapping
          rw [← isMapping_mergeAll_eraseIdleTags] at hmapping'
          have hstripped : ∀ v ∈ layers.map eraseIdleTags, v.Distinct :=
            List.forall_mem_map.mpr fun v hv => distinct_eraseIdleTags (hd v hv)
          have hdupper : ∀ v ∈ upper layers, v.eraseTags.Distinct := fun v hv =>
            hd v ((List.rtakeWhile_suffix _ _).subset hv)
          rw [hmerge] at hresult
          rw [hmerge, (mergeAll_eq_keywise hstripped hmapping').2, upper_eraseIdleTags,
            keywise_eraseIdleTags (hgathered.same_eraseTags hdupper hresult), eraseIdleTags_mapping]
          intro k hk
          refine ih (fun w hw => ?_) ?_ fun w hw => ?_
          · obtain ⟨entries, hv, l, hmem⟩ := exists_of_mem_valuesUnder hw
            exact ((distinct_eraseTags_mapping.mp (hdupper _ hv)).2 _ hmem).2
          · -- what stands under the key is part of the result
            exact ((distinct_eraseTags_mapping.mp hresult).2 _ (List.mem_map_of_mem hk)).2
          · obtain ⟨entries, hv, l, hmem⟩ := exists_of_mem_valuesUnder hw
            have hlt : sizeOf w < sizeOf (Value.mapping entries) := (Value.sizeOf_key_lt hmem).2
            have hle := hn _ ((List.rtakeWhile_suffix _ _).subset hv)
            omega

/-! ## Configurations -/

/-- No mapping and no null in the value carries a tag. -/
def OnlyIdleTags (v : Value) : Prop :=
  v.Everywhere fun w => ∀ tag u, w = .tagged tag u → blends u.eraseTags = false

/-- Where all tags are idle, all are erased. -/
theorem OnlyIdleTags.eraseIdleTags_eq {v : Value} (h : OnlyIdleTags v) :
    eraseIdleTags v = v.eraseTags := by
  induction v using Value.mapping_induction with
  | mapping entries ih =>
      have hparts := (Value.everywhere_mapping.mp h).2
      rw [eraseIdleTags_mapping, eraseTags_mapping]
      congr 1
      refine List.map_congr_left fun e he => ?_
      rw [eraseIdleEntry, eraseEntry, ih e he (hparts e he).2]
  | other v hv =>
      cases v with
      | mapping entries => cases hv
      | tagged tag w =>
          rw [eraseIdleTags, h.top tag w rfl, if_neg Bool.false_ne_true, eraseTags_tagged]
      | _ => rfl

/-- A configuration repeats no key without its tags. -/
theorem distinct_of_ofValue {v : Value} {c : Config} (h : ofValue v = .ok c) :
    v.eraseTags.Distinct := by
  rw [← ofValue_eraseTags] at h
  have haccepts := (exists_ofValue_iff v.tagFree_eraseTags).mp ⟨c, h⟩
  exact haccepts.distinct Field.Suits.distinct

/-- **Idle tags do not change the meaning of a layered configuration.**  If layers over the defaults give a
configuration, then they give the same without their idle tags; so they give the same without any tags if no
mapping and no null carries one. -/
theorem ofValue_mergeAll_eraseIdleTags {layers : List Value}
    (hd : ∀ v ∈ layers, v.eraseTags.Distinct) {c : Config}
    (h : ofValue (mergeAll (toValue default :: layers)) = .ok c) :
    ofValue (mergeAll (toValue default :: layers.map eraseIdleTags)) = .ok c ∧
      ((∀ v ∈ layers, OnlyIdleTags v) →
        ofValue (mergeAll (toValue default :: layers.map eraseTags)) = .ok c) := by
  have hidle : ofValue (mergeAll (toValue default :: layers.map eraseIdleTags)) = .ok c := by
    have hlayers : ∀ v ∈ toValue default :: layers, v.eraseTags.Distinct :=
      List.forall_mem_cons.mpr ⟨distinct_of_ofValue (ofValue_toValue default), hd⟩
    have hmerge := mergeAll_map_eraseIdleTags hlayers (distinct_of_ofValue h)
    rw [List.map_cons, show eraseIdleTags (toValue default) = toValue default from rfl] at hmerge
    rw [hmerge, ← ofValue_eraseTags, eraseTags_eraseIdleTags, ofValue_eraseTags]
    exact h
  refine ⟨hidle, fun honly => ?_⟩
  rwa [List.map_congr_left fun v hv => (honly v hv).eraseIdleTags_eq] at hidle

/-- Layers with tags on a truth value, on a list and on one of its texts. -/
def sampleIdle : List Value :=
  [.mapping [(.string "downstream", .mapping [(.string "use_nm", .tagged ⟨"b"⟩ (.bool true))])],
    .mapping [(.string "search_path", .tagged ⟨"s"⟩ (.sequence [.tagged ⟨"i"⟩ (.string "/bin")]))]]

/-- Without any tags the sample layers give what they give with them. -/
theorem sampleIdle_erased :
    (∀ v ∈ sampleIdle, v.eraseTags.Distinct) ∧ (∀ v ∈ sampleIdle, OnlyIdleTags v) ∧
      ofValue (mergeAll (toValue default :: sampleIdle.map eraseTags)) =
        .ok { searchPath := ["/bin"], downstream := { useNm := true } } := by
  have hd : ∀ v ∈ sampleIdle, v.eraseTags.Distinct := by
    simp [sampleIdle, Value.eraseTags, Value.eraseItems, Value.eraseEntries, Value.Distinct,
      Value.Everywhere, Value.EverywhereItems, Value.EverywhereEntries, Value.KeysDistinct,
      Yaml.Entries.Distinct]
  have honly : ∀ v ∈ sampleIdle, OnlyIdleTags v := by
    simp [sampleIdle, OnlyIdleTags, Value.Everywhere, Value.EverywhereItems, Value.EverywhereEntries,
      blends, Value.eraseTags, Value.eraseItems, Value.isNull, Value.isMapping]
  exact ⟨hd, honly, (ofValue_mergeAll_eraseIdleTags hd rfl).2 honly⟩

/-- A mapping with a tag over one that has another key. -/
def sampleReplaced : List Value :=
  [.mapping [(.string "downstream", .mapping [(.string "use_nm", .bool true)])],
    .mapping [(.string "downstream", .tagged ⟨"t"⟩ (.mapping [(.string "program", .string "x")]))]]

/-- Null with a tag over a list. -/
def sampleEmptied : List Value :=
  [.mapping [(.string "search_path", .tagged ⟨"t"⟩ .null)]]

/-- **Tags on mappings and on null do matter.**  A mapping with a tag takes the place of the one that is under
it, keys that it does not have included, and null with a tag takes the place of a list; without the tags
neither does. -/
theorem tagged_mapping_replaces :
    (∀ v ∈ sampleReplaced ++ sampleEmptied, v.eraseTags.Distinct) ∧
      ofValue (mergeAll (toValue default :: sampleReplaced)) =
        .ok { downstream := { program := "x" } } ∧
      ofValue (mergeAll (toValue default :: sampleReplaced.map eraseTags)) =
        .ok { downstream := { program := "x", useNm := true } } ∧
      ({ downstream := { program := "x" } } : Config) ≠
        { downstream := { program := "x", useNm := true } } ∧
      ofValue (mergeAll (toValue default :: sampleEmptied)) = .ok { searchPath := [] } ∧
      ofValue (mergeAll (toValue default :: sampleEmptied.map eraseTags)) = .ok default ∧
      ({ searchPath := [] } : Config) ≠ default := by
  have hd : ∀ v ∈ sampleReplaced ++ sampleEmptied, v.eraseTags.Distinct := by
    simp [sampleReplaced, sampleEmptied, Value.eraseTags, Value.eraseEntries, Value.Distinct,
      Value.Everywhere, Value.EverywhereEntries, Value.KeysDistinct, Yaml.Entries.Distinct]
  exact ⟨hd, rfl, rfl, by decide, rfl, rfl, by decide⟩

end ConfigDrive.Config
