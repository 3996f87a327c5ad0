/-
# ConfigDrive.Proofs.Config.Overlay — a merge of mappings, key by key.

Where no key is repeated, sameness of keys is an equivalence, so a look-up does not depend on how the key
is spelled (`Entries.get?_congr`), and entries are determined by their keys, in order, and by what is found
under them (`Entries.eq_of_keys_eq`).

This turns the recursion of a merge, which stores one entry after the other, into two equations: what keys
there are in the end (`keys_mergeEntries`), and what is found under each (`get?_mergeEntries_key`).  All
that is said about stacks of layers follows from them; first of all that a merge repeats no key
(`distinct_mergeAll`).
-/
import ConfigDrive.Proofs.Config.Layers
import ConfigDrive.Proofs.Config.Remains

namespace ConfigDrive.Yaml

theorem Value.exists_of_isMapping {v : Value} (h : v.isMapping = true) :
    ∃ entries, v = .mapping entries := by
  cases v with
  | mapping entries => exact ⟨entries, rfl⟩
  | _ => cases h

/-! ## Sameness as an equation -/

namespace Value.Distinct

variable {k l v : Value}

theorem same_comm (hk : k.Distinct) (hl : l.Distinct) : k.same l = l.same k := by
  rw [Bool.eq_iff_iff]
  constructor
  · exact hk.same_symm hl
  · exact hl.same_symm hk

/-- The same keys are the same as the same others. -/
theorem same_congr (hk : k.Distinct) (hl : l.Distinct) (hv : v.Distinct) (h : k.same l = true) :
    k.same v = l.same v := by
  rw [Bool.eq_iff_iff]
  constructor
  · intro hkv
    exact hl.same_trans hk hv (hk.same_symm hl h) hkv
  · intro hlv
    exact hk.same_trans hl hv h hlv

theorem of_mem_keys {entries : List (Value × Value)} (h : (Value.mapping entries).Distinct) :
    ∀ k ∈ Entries.keys entries, k.Distinct := by
  intro k hk
  obtain ⟨e, he, rfl⟩ := List.mem_map.mp hk
  exact ((distinct_mapping.mp h).2 e he).1

end Value.Distinct

/-! ## Look-ups -/

namespace Entries

variable {entries : List (Value × Value)} {k l : Value}

theorem forall_mem_keys_cons {P : Value → Prop} {e : Value × Value} :
    (∀ k ∈ keys (e :: entries), P k) ↔ P e.1 ∧ ∀ k ∈ keys entries, P k := by
  simp [keys]

theorem distinct_iff_keys :
    Distinct entries ↔ (keys entries).Pairwise fun k l => k.same l = false := by
  rw [distinct_iff_pairwise, keys, List.pairwise_map]

theorem get?_isNone_iff : (get? entries k).isNone = true ↔ ∀ l ∈ keys entries, k.same l = false := by
  rw [Option.isNone_iff_eq_none, get?_eq_none_iff]
  simp [keys]

/-- A look-up does not depend on the spelling of the key. -/
theorem get?_congr (hd : ∀ m ∈ keys entries, m.Distinct) (hk : k.Distinct) (hl : l.Distinct)
    (h : k.same l = true) : get? entries k = get? entries l := by
  induction entries with
  | nil => rfl
  | cons e rest ih =>
      obtain ⟨he, hrest⟩ := forall_mem_keys_cons.mp hd
      rw [get?_cons, get?_cons, hk.same_congr hl he h, ih hrest]

/-- What was stored is found under its key, and nothing else has changed. -/
theorem get?_put (hd : ∀ m ∈ keys entries, m.Distinct) (hk : k.Distinct) (hl : l.Distinct)
    (v : Value) :
    get? (put entries k v) l = if l.same k then some v else get? entries l := by
  induction entries with
  | nil => rw [put, get?_cons]
  | cons e rest ih =>
      obtain ⟨he, hrest⟩ := forall_mem_keys_cons.mp hd
      rw [put]
      by_cases hsame : k.same e.1 = true
      · have hle : l.same e.1 = l.same k := by
          rw [hl.same_comm he, hl.same_comm hk]
          exact (hk.same_congr he hl hsame).symm
        rw [if_pos hsame, get?_cons, get?_cons, hle]
        split <;> rfl
      · rw [if_neg hsame, get?_cons, get?_cons, ih hrest]
        by_cases hle : l.same e.1 = true
        · have hlk : ¬ l.same k = true := by
            intro h
            exact hsame (hk.same_trans hl he (hl.same_symm hk h) hle)
          rw [if_pos hle, if_neg hlk, if_pos hle]
        · rw [if_neg hle, if_neg hle]

/-- Every entry is found under its key. -/
theorem get?_of_mem (hd : Distinct entries) (hk : ∀ m ∈ keys entries, m.Distinct)
    {e : Value × Value} (he : e ∈ entries) : get? entries e.1 = some e.2 := by
  induction entries with
  | nil => cases he
  | cons f rest ih =>
      obtain ⟨hf, hrest⟩ := forall_mem_keys_cons.mp hk
      rw [get?_cons]
      rcases List.mem_cons.mp he with rfl | htail
      · rw [if_pos hf.same_refl]
      · have hekey : e.1.Distinct := hrest e.1 (List.mem_map_of_mem htail)
        have hne : ¬ e.1.same f.1 = true := by
          rw [hekey.same_comm hf, hd.1 e htail]
          exact Bool.false_ne_true
        rw [if_neg hne]
        exact ih hd.2 hrest htail

/-- Entries are what stands under their keys. -/
theorem map_keys (hd : Distinct entries) (hk : ∀ m ∈ keys entries, m.Distinct) :
    ((keys entries).map fun k => (k, (get? entries k).getD .null)) = entries := by
  rw [keys, List.map_map]
  refine (List.map_congr_left ?_).trans (List.map_id entries)
  intro e he
  simp [get?_of_mem hd hk he]

/-- **Entries are determined by their keys, in order, and by what is found under them.** -/
theorem eq_of_keys_eq {others : List (Value × Value)} (hd : Distinct entries)
    (hk : ∀ m ∈ keys entries, m.Distinct) (hkeys : keys others = keys entries)
    (hget : ∀ k ∈ keys entries, get? others k = get? entries k) : others = entries := by
  have hdothers : Distinct others := by
    rw [distinct_iff_keys, hkeys]
    exact distinct_iff_keys.mp hd
  rw [← map_keys hd hk, ← map_keys hdothers (hkeys ▸ hk), hkeys]
  refine List.map_congr_left ?_
  intro k hmem
  rw [hget k hmem]

end Entries

end ConfigDrive.Yaml

namespace ConfigDrive.Config

open ConfigDrive.Yaml (Value)
open ConfigDrive.Yaml.Entries (get? put keys)

/-! ## Keys and values of a merge -/

/-- What stands in a value under a key. -/
def under? (key : Value) : Value → Option Value
  | .mapping entries => get? entries key
  | _ => none

theorem under?_of_not_isMapping {v : Value} (h : v.isMapping = false) (k : Value) :
    under? k v = none := by
  cases v <;> first | rfl | cases h

/-- What one key gives in a merge, from what it gives in each of the two. -/
def stackOn : Option Value → Option Value → Option Value
  | none, top => top
  | some v, top => some (laid v top)

theorem stackOn_none (base : Option Value) : stackOn base none = base := by
  cases base <;> rfl

theorem stackOn_some (base : Option Value) (v : Value) :
    stackOn base (some v) = some (merge (base.getD .null) v) := by
  cases base with
  | none => simp [stackOn, null_merge]
  | some u => rfl

/-- What is stored when an overlay gives a value. -/
theorem mergeEntries_cons_over (entries : List (Value × Value)) (key v : Value)
    (rest : List (Value × Value)) :
    mergeEntries entries ((key, v) :: rest) =
      mergeEntries (put entries key (merge ((get? entries key).getD .null) v)) rest := by
  rw [mergeEntries_cons]
  cases get? entries key <;> simp [null_merge]

section Keywise

variable {entries overlay : List (Value × Value)}

theorem mem_keys_put {key m : Value} {v : Value} (h : m ∈ keys (put entries key v)) :
    m ∈ keys entries ∨ m = key := by
  rw [Yaml.Entries.keys_put] at h
  split at h
  · exact .inl h
  · simpa using h

/-- **The keys of a merge** are those of the base, then those of the overlay that are new. -/
theorem keys_mergeEntries (hd : Yaml.Entries.Distinct overlay)
    (hov : ∀ m ∈ keys overlay, m.Distinct) (hes : ∀ m ∈ keys entries, m.Distinct) :
    keys (mergeEntries entries overlay) =
      keys entries ++ (keys overlay).filter fun k => (get? entries k).isNone := by
  induction overlay generalizing entries with
  | nil => simp [mergeEntries, keys]
  | cons e rest ih =>
      obtain ⟨key, v⟩ := e
      obtain ⟨hkey, hrest⟩ := Yaml.Entries.forall_mem_keys_cons.mp hov
      rw [mergeEntries_cons_over, ih hd.2 hrest, Yaml.Entries.keys_put]
      · -- the keys still to come are not the same as this one
        have hnew : ((keys rest).filter fun k => (get? (put entries key
            (merge ((get? entries key).getD .null) v)) k).isNone) =
            (keys rest).filter fun k => (get? entries k).isNone := by
          refine List.filter_congr ?_
          intro k hk
          obtain ⟨f, hf, rfl⟩ := List.mem_map.mp hk
          rw [Yaml.Entries.get?_put hes hkey (hrest _ hk), (hrest _ hk).same_comm hkey, hd.1 f hf,
            if_neg Bool.false_ne_true]
        rw [hnew, show keys ((key, v) :: rest) = key :: keys rest from rfl]
        cases hget : get? entries key <;> simp [hget]
      · intro m hm
        rcases mem_keys_put hm with h | rfl
        · exact hes m h
        · exact hkey

/-- **What is found in a merge**: under each key, what the overlay gives, laid over what was there. -/
theorem get?_mergeEntries_key (hd : Yaml.Entries.Distinct overlay)
    (hov : ∀ m ∈ keys overlay, m.Distinct) (hes : ∀ m ∈ keys entries, m.Distinct) {k : Value}
    (hk : k.Distinct) :
    get? (mergeEntries entries overlay) k = stackOn (get? entries k) (get? overlay k) := by
  induction overlay generalizing entries with
  | nil => rw [mergeEntries, show get? [] k = none from rfl, stackOn_none]
  | cons e rest ih =>
      obtain ⟨key, v⟩ := e
      obtain ⟨hkey, hrest⟩ := Yaml.Entries.forall_mem_keys_cons.mp hov
      rw [mergeEntries_cons_over, ih hd.2 hrest, Yaml.Entries.get?_put hes hkey hk,
        Yaml.Entries.get?_cons]
      · by_cases hsame : k.same key = true
        · -- under its own key an entry is the last word, because the key does not come again
          have hlast : get? rest k = none := by
            rw [Yaml.Entries.get?_congr hrest hk hkey hsame]
            exact Yaml.Entries.get?_eq_none_iff.mpr hd.1
          rw [if_pos hsame, if_pos hsame, hlast, stackOn_none, stackOn_some,
            Yaml.Entries.get?_congr hes hk hkey hsame]
        · rw [if_neg hsame, if_neg hsame]
      · intro m hm
        rcases mem_keys_put hm with h | rfl
        · exact hes m h
        · exact hkey

theorem distinct_keys_mergeEntries (hd : Yaml.Entries.Distinct overlay)
    (hov : ∀ m ∈ keys overlay, m.Distinct) (hdes : Yaml.Entries.Distinct entries)
    (hes : ∀ m ∈ keys entries, m.Distinct) :
    Yaml.Entries.Distinct (mergeEntries entries overlay) ∧
      ∀ m ∈ keys (mergeEntries entries overlay), m.Distinct := by
  rw [Yaml.Entries.distinct_iff_keys, keys_mergeEntries hd hov hes]
  constructor
  · rw [List.pairwise_append]
    refine ⟨Yaml.Entries.distinct_iff_keys.mp hdes,
      (Yaml.Entries.distinct_iff_keys.mp hd).filter _, ?_⟩
    intro k hk l hl
    obtain ⟨hlmem, hnew⟩ := List.mem_filter.mp hl
    rw [(hes k hk).same_comm (hov l hlmem)]
    exact Yaml.Entries.get?_isNone_iff.mp hnew k hk
  · intro m hm
    rcases List.mem_append.mp hm with h | h
    · exact hes m h
    · exact hov m (List.mem_filter.mp h).1

end Keywise

/-- Entries laid over nothing are left as they are. -/
theorem mergeEntries_nil {overlay : List (Value × Value)} (hd : Yaml.Entries.Distinct overlay)
    (hov : ∀ m ∈ keys overlay, m.Distinct) : mergeEntries [] overlay = overlay := by
  have hnone : ∀ m ∈ keys [], m.Distinct := by simp [keys]
  apply Yaml.Entries.eq_of_keys_eq hd hov
  · rw [keys_mergeEntries hd hov hnone]
    simp [keys, get?]
  · intro k hk
    rw [get?_mergeEntries_key hd hov hnone (hov k hk)]
    simp [stackOn, get?]

/-! ## A merge repeats no key -/

theorem merge_mapping (entries overlay : List (Value × Value)) :
    merge (.mapping entries) (.mapping overlay) = .mapping (mergeEntries entries overlay) := by
  rw [merge]

/-- What is no mapping gives way to one. -/
theorem merge_mapping_of_not_isMapping {base : Value} (h : base.isMapping = false)
    (overlay : List (Value × Value)) : merge base (.mapping overlay) = .mapping overlay :=
  merge_of_not_mapping rfl (by rw [h, Bool.false_and])

/-- A merge gives a mapping if the overlay is one, or null over one. -/
theorem isMapping_merge (base overlay : Value) :
    (merge base overlay).isMapping = if overlay.isNull then base.isMapping else overlay.isMapping := by
  cases hv : overlay.isMapping with
  | true =>
      obtain ⟨entries, rfl⟩ := Value.exists_of_isMapping hv
      cases base <;> rw [merge] <;> first | rfl | simp
  | false =>
      rcases merge_of_not_isMapping hv base with ⟨rfl, hmerge⟩ | ⟨hnull, hmerge⟩
      · rw [hmerge]
        rfl
      · rw [hmerge, hnull, if_neg Bool.false_ne_true, hv]

/-- **Values without repeated keys merge into a value without repeated keys.** -/
theorem distinct_merge {a b : Value} (ha : a.Distinct) (hb : b.Distinct) : (merge a b).Distinct := by
  induction b using Value.mapping_induction generalizing a with
  | other b hmapping =>
      rcases merge_of_not_isMapping hmapping a with ⟨-, hmerge⟩ | ⟨-, hmerge⟩
      · rw [hmerge]
        exact ha
      · rw [hmerge]
        exact hb
  | mapping overlay ih =>
      cases a with
      | mapping entries =>
          obtain ⟨hdes, hes⟩ := Value.distinct_mapping.mp ha
          obtain ⟨hdov, hov⟩ := Value.distinct_mapping.mp hb
          obtain ⟨hdistinct, hkeys⟩ :=
            distinct_keys_mergeEntries hdov hb.of_mem_keys hdes ha.of_mem_keys
          rw [merge_mapping, Value.distinct_mapping]
          refine ⟨hdistinct, ?_⟩
          intro e he
          have hkey : e.1.Distinct := hkeys e.1 (List.mem_map_of_mem he)
          refine ⟨hkey, ?_⟩
          have hget := Yaml.Entries.get?_of_mem hdistinct hkeys he
          rw [get?_mergeEntries_key hdov hb.of_mem_keys ha.of_mem_keys hkey] at hget
          -- the value is one of the base, one of the overlay, or one laid over the other
          cases hover : get? overlay e.1 with
          | none =>
              rw [hover, stackOn_none] at hget
              exact ha.of_get? hget
          | some w =>
              obtain ⟨l, hmem, -⟩ := Yaml.Entries.exists_mem_of_get? hover
              rw [hover, stackOn_some, Option.some.injEq] at hget
              rw [← hget]
              refine ih (l, w) hmem ?_ (hov _ hmem).2
              cases hunder : get? entries e.1 with
              | none => trivial
              | some u => exact ha.of_get? hunder
      | _ =>
          rw [merge_mapping_of_not_isMapping rfl]
          exact hb

/-- A stack of layers without repeated keys repeats none. -/
theorem distinct_mergeAll {layers : List Value} (h : ∀ v ∈ layers, v.Distinct) :
    (mergeAll layers).Distinct :=
  List.foldlRecOn layers merge trivial fun _ hacc v hv => distinct_merge hacc (h v hv)

end ConfigDrive.Config
