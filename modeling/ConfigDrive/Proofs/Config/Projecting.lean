/-
# ConfigDrive.Proofs.Config.Projecting — a stack of layers, key by key.

A layer that is neither null nor a mapping hides all that is under it, so only the layers above the last
such layer count (`upper`).  If there are mappings among those, the stack gives a mapping, and what stands
in it under a key is what the stack of the values under that key gives: stacking layers and looking up a
key may be done in either order (`mergeAll_projects`).

The proof goes up the stack.  `Gathered layers entries` says what has been merged so far: the keys are
those of the layers in the order in which they first occur, and under each key stand the values of the
layers, one laid over the other.  Each layer keeps that true, and when all are in place it determines the
entries.
-/
import ConfigDrive.Proofs.Config.Overlay
import Mathlib.Data.List.DropRight

namespace ConfigDrive.Config

open ConfigDrive.Yaml (Value)
open ConfigDrive.Yaml.Entries (get? keys)

/-! ## What counts in a stack -/

/-- A layer that does not hide what is under it. -/
def blends (v : Value) : Bool :=
  v.isNull || v.isMapping

/-- The layers above the last one that hides what is under it. -/
def upper (layers : List Value) : List Value :=
  layers.rtakeWhile blends

/-- The last layer that hides what is under it. -/
def lastHiding? (layers : List Value) : Option Value :=
  (layers.filter fun v => !blends v).getLast?

/-- The keys of a layer. -/
def layerKeys : Value → List Value
  | .mapping entries => keys entries
  | _ => []

theorem layerKeys_of_not_isMapping {v : Value} (h : v.isMapping = false) : layerKeys v = [] := by
  cases v <;> first | rfl | cases h

/-- The keys of the layers in order of their first occurrence, each once and in its first spelling. -/
def firstKeys (layers : List Value) : List Value :=
  (layers.flatMap layerKeys).eraseDupsBy Value.same

/-- The values that stand in the layers under a key, in order. -/
def valuesUnder (key : Value) (layers : List Value) : List Value :=
  layers.filterMap (under? key)

/-- Under each key of the layers, what the values under that key give. -/
def keywise (layers : List Value) : List (Value × Value) :=
  (firstKeys layers).map fun key => (key, mergeAll (valuesUnder key layers))

/-! ## First occurrences -/

section FirstOccurrences

variable {α : Type} {r : α → α → Bool}

theorem eraseDupsBy_of_pairwise {as : List α} (h : as.Pairwise fun a b => r b a = false) :
    as.eraseDupsBy r = as := by
  induction as with
  | nil => rfl
  | cons a as ih =>
      obtain ⟨ha, has⟩ := List.pairwise_cons.mp h
      have hall : as.filter (fun b => decide (r b a = false)) = as := by
        rw [List.filter_eq_self]
        intro b hb
        simp [ha b hb]
      rw [List.eraseDupsBy_cons, hall, ih has]

/-- Of a second list there remains what the first one has not left already. -/
theorem eraseDupsBy_append (as bs : List α) :
    (as ++ bs).eraseDupsBy r =
      as.eraseDupsBy r ++
        (bs.filter fun b => (as.eraseDupsBy r).all fun a => !r b a).eraseDupsBy r := by
  induction hn : as.length using Nat.strong_induction_on generalizing as bs with
  | _ n ih =>
      cases as with
      | nil => simp
      | cons a as =>
          have hlt : (as.filter fun b => decide (r b a = false)).length < n := by
            have hle := List.length_filter_le (fun b => decide (r b a = false)) as
            simp only [List.length_cons] at hn
            omega
          rw [List.cons_append, List.eraseDupsBy_cons, List.filter_append, ih _ hlt _ _ rfl,
            List.eraseDupsBy_cons, List.cons_append, List.filter_filter]
          congr 3
          apply List.filter_congr
          intro b _
          simp [Bool.and_comm]

theorem mem_of_mem_eraseDupsBy {as : List α} {a : α} (h : a ∈ as.eraseDupsBy r) : a ∈ as := by
  induction hn : as.length using Nat.strong_induction_on generalizing as with
  | _ n ih =>
      cases as with
      | nil => simp at h
      | cons b as =>
          have hle := List.length_filter_le (fun c => decide (r c b = false)) as
          rw [List.length_cons] at hn
          rw [List.eraseDupsBy_cons, List.mem_cons] at h
          rcases h with rfl | h
          · exact List.mem_cons_self
          · exact List.mem_cons_of_mem _ (List.mem_filter.mp (ih _ (by omega) h rfl)).1

/-- Every member of a list has a first occurrence. -/
theorem exists_mem_eraseDupsBy {as : List α} (hrefl : ∀ a ∈ as, r a a = true) {a : α} (ha : a ∈ as) :
    ∃ b ∈ as.eraseDupsBy r, r a b = true := by
  induction hn : as.length using Nat.strong_induction_on generalizing as with
  | _ n ih =>
      cases as with
      | nil => cases ha
      | cons b as =>
          rw [List.eraseDupsBy_cons]
          have hle := List.length_filter_le (fun c => decide (r c b = false)) as
          rw [List.length_cons] at hn
          by_cases hfirst : r a b = true
          · exact ⟨b, List.mem_cons_self, hfirst⟩
          · have hne : a ≠ b := by
              rintro rfl
              exact hfirst (hrefl a ha)
            have hmem : a ∈ as.filter fun c => decide (r c b = false) := by
              simpa [hfirst] using List.mem_of_ne_of_mem hne ha
            have hrest : ∀ c ∈ as.filter fun c => decide (r c b = false), r c c = true := fun c hc =>
              hrefl c (List.mem_cons_of_mem _ (List.mem_filter.mp hc).1)
            obtain ⟨c, hc, hac⟩ := ih _ (by omega) hrest hmem rfl
            exact ⟨c, List.mem_cons_of_mem _ hc, hac⟩

/-- The first occurrences of images are the images of first occurrences, if no more of them are the same. -/
theorem eraseDupsBy_map {β : Type} {r' : β → β → Bool} {f : α → β} {as : List α}
    (h : ∀ a ∈ as, ∀ b ∈ as, r' (f a) (f b) = r a b) :
    (as.map f).eraseDupsBy r' = (as.eraseDupsBy r).map f := by
  induction hn : as.length using Nat.strong_induction_on generalizing as with
  | _ n ih =>
      cases as with
      | nil => simp
      | cons a as =>
          have hle := List.length_filter_le (fun b => decide (r b a = false)) as
          rw [List.length_cons] at hn
          have hfilter : (as.map f).filter (fun b => decide (r' b (f a) = false)) =
              (as.filter fun b => decide (r b a = false)).map f := by
            rw [List.filter_map]
            congr 1
            refine List.filter_congr fun b hb => ?_
            rw [Function.comp_apply, h b (List.mem_cons_of_mem _ hb) a List.mem_cons_self]
          have hrest : ∀ b ∈ as.filter (fun b => decide (r b a = false)),
              ∀ c ∈ as.filter (fun b => decide (r b a = false)), r' (f b) (f c) = r b c :=
            fun b hb c hc => h b (List.mem_cons_of_mem _ (List.mem_filter.mp hb).1) c
              (List.mem_cons_of_mem _ (List.mem_filter.mp hc).1)
          rw [List.map_cons, List.eraseDupsBy_cons, List.eraseDupsBy_cons, List.map_cons, hfilter,
            ih _ (by omega) hrest rfl]

end FirstOccurrences

/-! ## Going up the stack -/

/-- What some layers gave as entries: their keys, and under each the values one laid over the other. -/
structure Gathered (layers : List Value) (entries : List (Value × Value)) : Prop where
  distinct : (Value.mapping entries).Distinct
  keys_eq : keys entries = firstKeys layers
  values : ∀ k : Value, k.Distinct →
    get? entries k = (valuesUnder k layers).foldl (fun base v => stackOn base (some v)) none

theorem Gathered.nil : Gathered [] [] where
  distinct := Value.distinct_mapping.mpr ⟨trivial, by simp⟩
  keys_eq := rfl
  values _ _ := rfl

/-- Null changes nothing. -/
theorem Gathered.null {layers : List Value} {entries : List (Value × Value)}
    (h : Gathered layers entries) : Gathered (layers ++ [.null]) entries where
  distinct := h.distinct
  keys_eq := by
    rw [h.keys_eq]
    simp [firstKeys, layerKeys]
  values k hk := by
    rw [h.values k hk]
    simp [valuesUnder, List.filterMap_cons, under?]

/-- **A mapping on top** adds its new keys, and lies over what is there under the others. -/
theorem Gathered.mapping {layers : List Value} {entries overlay : List (Value × Value)}
    (h : Gathered layers entries) (hov : (Value.mapping overlay).Distinct) :
    Gathered (layers ++ [.mapping overlay]) (mergeEntries entries overlay) where
  distinct := by
    rw [← merge_mapping]
    exact distinct_merge h.distinct hov
  keys_eq := by
    have hd := (Value.distinct_mapping.mp hov).1
    -- the keys of one layer are distinct, so among those that are new none is dropped
    have hpairwise : (keys overlay).Pairwise fun k l => l.same k = false := by
      refine (Yaml.Entries.distinct_iff_keys.mp hd).imp_of_mem ?_
      intro k l hk hl hne
      rw [(hov.of_mem_keys l hl).same_comm (hov.of_mem_keys k hk)]
      exact hne
    rw [keys_mergeEntries hd hov.of_mem_keys h.distinct.of_mem_keys, firstKeys,
      List.flatMap_append, eraseDupsBy_append, ← firstKeys, h.keys_eq]
    simp only [List.flatMap_singleton, layerKeys]
    rw [eraseDupsBy_of_pairwise (hpairwise.filter _)]
    congr 1
    apply List.filter_congr
    intro k _
    rw [Bool.eq_iff_iff, Yaml.Entries.get?_isNone_iff, h.keys_eq]
    simp
  values k hk := by
    have hd := (Value.distinct_mapping.mp hov).1
    rw [get?_mergeEntries_key hd hov.of_mem_keys h.distinct.of_mem_keys hk, h.values k hk]
    simp only [valuesUnder, List.filterMap_append, List.foldl_append]
    cases hget : get? overlay k with
    | none => simp [under?, hget, stackOn_none]
    | some v => simp [under?, hget]

/-- Values one laid over the other are their merge. -/
theorem getD_foldl_over (vs : List Value) :
    (vs.foldl (fun base v => stackOn base (some v)) none).getD .null = mergeAll vs := by
  refine (List.foldl_hom (fun base : Option Value => base.getD .null) ?_).symm
  intro base v
  rw [stackOn_some, Option.getD_some]

/-- What was gathered is determined by the layers. -/
theorem Gathered.eq {layers : List Value} {entries : List (Value × Value)}
    (h : Gathered layers entries) : entries = keywise layers := by
  have hd := (Value.distinct_mapping.mp h.distinct).1
  have hkeys := h.distinct.of_mem_keys
  rw [← Yaml.Entries.map_keys hd hkeys, keywise, ← h.keys_eq]
  apply List.map_congr_left
  intro k hk
  rw [h.values k (hkeys k hk), getD_foldl_over]

theorem Gathered.eq_nil {layers : List Value} {entries : List (Value × Value)}
    (h : Gathered layers entries) (hnone : layers.any Value.isMapping = false) : entries = [] := by
  have hkeys : layers.flatMap layerKeys = [] := by
    rw [List.flatMap_eq_nil_iff]
    intro v hv
    have hmapping := List.any_eq_false.mp hnone v hv
    cases v with
    | mapping entries => exact absurd rfl hmapping
    | _ => rfl
  have hempty := h.keys_eq
  rw [firstKeys, hkeys] at hempty
  exact List.map_eq_nil_iff.mp hempty

/-- **Layers that hide nothing**, laid over a value that is no mapping: entries are gathered as soon as
there is a mapping, and before that nothing has changed. -/
theorem exists_gathered {layers : List Value} (hd : ∀ v ∈ layers, v.Distinct)
    (hblend : ∀ v ∈ layers, blends v = true) {base : Value} (hbase : base.isMapping = false) :
    ∃ entries, Gathered layers entries ∧
      layers.foldl merge base = if layers.any Value.isMapping then .mapping entries else base := by
  induction layers using List.reverseRecOn with
  | nil => exact ⟨[], Gathered.nil, rfl⟩
  | append_singleton layers v ih =>
      rw [List.forall_mem_append] at hd hblend
      obtain ⟨entries, hgathered, hfold⟩ := ih hd.1 hblend.1
      have hv : v.Distinct := hd.2 v (by simp)
      rw [List.foldl_append, hfold]
      cases v with
      | null => exact ⟨entries, hgathered.null, by simp [merge_null, Value.isMapping]⟩
      | mapping overlay =>
          refine ⟨mergeEntries entries overlay, hgathered.mapping hv, ?_⟩
          cases hany : layers.any Value.isMapping with
          | true => simp [merge_mapping, Value.isMapping]
          | false =>
              -- the first mapping is laid over the base, which gives way to it
              have hov := (Value.distinct_mapping.mp hv).1
              rw [hgathered.eq_nil hany, mergeEntries_nil hov hv.of_mem_keys]
              simp [merge_mapping_of_not_isMapping hbase, Value.isMapping]
      | _ => exact absurd (hblend.2 _ List.mem_cons_self) (by simp [blends, Value.isNull, Value.isMapping])

/-! ## The whole stack -/

/-- A stack is what lies above the last layer that hides others, over that layer. -/
theorem mergeAll_eq_upper (layers : List Value) :
    mergeAll layers = (upper layers).foldl merge ((lastHiding? layers).getD .null) ∧
      ((lastHiding? layers).getD .null).isMapping = false := by
  induction layers using List.reverseRecOn with
  | nil => exact ⟨rfl, rfl⟩
  | append_singleton layers v ih =>
      cases hv : blends v with
      | true =>
          have hlast : lastHiding? (layers ++ [v]) = lastHiding? layers := by
            simp [lastHiding?, hv]
          have hupper : upper (layers ++ [v]) = upper layers ++ [v] :=
            List.rtakeWhile_concat_pos _ _ _ hv
          rw [mergeAll_append, ih.1, hlast, hupper, List.foldl_append]
          exact ⟨rfl, ih.2⟩
      | false =>
          have hlast : lastHiding? (layers ++ [v]) = some v := by
            simp [lastHiding?, hv]
          have hupper : upper (layers ++ [v]) = [] :=
            List.rtakeWhile_concat_neg _ _ _ (by simp [hv])
          simp only [blends, Bool.or_eq_false_iff] at hv
          rw [mergeAll_append, hlast, hupper,
            merge_of_not_mapping hv.1 (by rw [hv.2, Bool.and_false])]
          exact ⟨rfl, hv.2⟩

/-- What a stack gives as a mapping stands in the layers that count, key by key. -/
theorem mergeAll_eq_keywise {layers : List Value} (hd : ∀ v ∈ layers, v.Distinct)
    (h : (mergeAll layers).isMapping = true) :
    Gathered (upper layers) (keywise (upper layers)) ∧
      mergeAll layers = .mapping (keywise (upper layers)) := by
  obtain ⟨hstack, hbase⟩ := mergeAll_eq_upper layers
  have hdupper : ∀ v ∈ upper layers, v.Distinct := fun v hv =>
    hd v ((List.rtakeWhile_suffix _ _).subset hv)
  obtain ⟨entries, hgathered, hfold⟩ :=
    exists_gathered hdupper (fun v hv => List.mem_rtakeWhile_imp hv) hbase
  rw [hfold] at hstack
  rw [← hgathered.eq]
  refine ⟨hgathered, ?_⟩
  cases hany : (upper layers).any Value.isMapping with
  | true => rw [hstack, hany, if_pos rfl]
  | false =>
      rw [hstack, hany, if_neg Bool.false_ne_true, hbase] at h
      cases h

theorem lastHiding?_isSome {layers : List Value} (hnull : ∃ v ∈ layers, v ≠ .null)
    (hupper : ∀ v ∈ upper layers, v.isMapping = false) : (lastHiding? layers).isSome = true := by
  obtain ⟨v, hv, hne⟩ := hnull
  by_contra hnone
  rw [Option.not_isSome_iff_eq_none, lastHiding?, List.getLast?_eq_none_iff,
    List.filter_eq_nil_iff] at hnone
  -- otherwise all layers count, and they are all null
  have hblend : ∀ w ∈ layers, blends w = true := by
    intro w hw
    simpa using hnone w hw
  rw [upper, List.rtakeWhile_eq_self_iff.mpr hblend] at hupper
  have hvnull := hblend v hv
  rw [blends, hupper v hv, Bool.or_false] at hvnull
  exact hne (Value.eq_null_of_isNull hvnull)

/-- **Stacking layers commutes with looking up a key.**  Layers that are all null give null.  Otherwise, if
there is no mapping above the last layer that is neither null nor a mapping, that layer is the result; and
if there is one, the result is a mapping with the keys of the mappings there, in order of first
occurrence, and under each key stands what the values under that key give.  No key is repeated. -/
theorem mergeAll_projects {layers : List Value} (hd : ∀ v ∈ layers, v.Distinct) :
    ((∀ v ∈ layers, v = .null) → mergeAll layers = .null) ∧
      ((∃ v ∈ layers, v ≠ .null) → (∀ v ∈ upper layers, v.isMapping = false) →
        lastHiding? layers = some (mergeAll layers)) ∧
      ((∃ v ∈ upper layers, v.isMapping = true) →
        mergeAll layers = .mapping (keywise (upper layers))) ∧
      (mergeAll layers).Distinct := by
  obtain ⟨hstack, hbase⟩ := mergeAll_eq_upper layers
  have hdupper : ∀ v ∈ upper layers, v.Distinct := by
    intro v hv
    exact hd v ((List.rtakeWhile_suffix _ _).subset hv)
  have hblend : ∀ v ∈ upper layers, blends v = true := by
    intro v hv
    exact List.mem_rtakeWhile_imp hv
  obtain ⟨entries, hgathered, hfold⟩ := exists_gathered hdupper hblend hbase
  rw [hfold] at hstack
  refine ⟨?_, ?_, ?_, distinct_mergeAll hd⟩
  · intro hnull
    rw [mergeAll]
    apply List.foldlRecOn (motive := fun v => v = Value.null) layers merge rfl
    rintro _ rfl v hv
    rw [hnull v hv, merge_null]
  · intro hsome hnone
    have hany : (upper layers).any Value.isMapping = false := by
      simpa using hnone
    rw [hany, if_neg Bool.false_ne_true] at hstack
    obtain ⟨v, hv⟩ := Option.isSome_iff_exists.mp (lastHiding?_isSome hsome hnone)
    rw [hstack, hv, Option.getD_some]
  · intro hmapping
    have hany : (upper layers).any Value.isMapping = true := by
      simpa using hmapping
    rw [hstack, hany, if_pos rfl, hgathered.eq]

/-- A stack in which a number hides a layer, null hides none, and a key comes in two spellings. -/
def sampleStack : List Value :=
  let ab := Value.mapping [(.string "a", .int 1), (.string "b", .int 2)]
  let ba := Value.mapping [(.string "b", .int 2), (.string "a", .int 1)]
  [.mapping [(.string "hidden", .int 0)], .int 5,
    .mapping [(ab, .mapping [(.string "x", .int 1)]), (.string "c", .null)], .null,
    .mapping [(.string "d", .bool true), (ba, .mapping [(.string "y", .int 2)])]]

/-- What the sample stack gives: the key keeps the place and the spelling of its first occurrence. -/
theorem sampleStack_projects :
    (∃ v ∈ upper sampleStack, v.isMapping = true) ∧
      mergeAll sampleStack = .mapping (keywise (upper sampleStack)) ∧
      keywise (upper sampleStack) =
        [(.mapping [(.string "a", .int 1), (.string "b", .int 2)],
            .mapping [(.string "x", .int 1), (.string "y", .int 2)]),
          (.string "c", .null), (.string "d", .bool true)] := by
  have hd : ∀ v ∈ sampleStack, v.Distinct := by
    simp [sampleStack, Value.Distinct, Value.Everywhere, Value.EverywhereEntries, Value.KeysDistinct,
      Yaml.Entries.Distinct, Value.same]
  have hmapping : ∃ v ∈ upper sampleStack, v.isMapping = true :=
    ⟨_, List.mem_cons_self, rfl⟩
  exact ⟨hmapping, (mergeAll_projects hd).2.2.1 hmapping, rfl⟩

end ConfigDrive.Config
