/-
# ConfigDrive.Proofs.Config.Associating — which of three layers are merged first.

A merge is not associative: a number between two mappings hides the first if it is laid over that one, but
is itself replaced if the last mapping is laid over it first.  This is all that can go wrong.  As long as
nothing but a mapping, null or an absent key stands between two mappings, at any path of keys
(`Bridges`), it does not matter which two of three values are merged first (`merge_assoc`).  The results
are equal, with the same keys in the same order and spelling.
-/
import ConfigDrive.Proofs.Config.Overlay

namespace ConfigDrive.Config

open ConfigDrive.Yaml (Value)
open ConfigDrive.Yaml.Entries (get? keys)

/-! ## Paths of keys -/

/-- The value to which a path of keys leads. -/
def reached? : List Value → Value → Option Value
  | [], v => some v
  | key :: path, v => (under? key v).bind (reached? path)

/-- There is a mapping at the end of the path. -/
def HoldsMapping (path : List Value) (v : Value) : Prop :=
  ∃ entries, reached? path v = some (.mapping entries)

/-- Wherever the first and the last value both hold a mapping, the one between them holds a mapping,
null or nothing. -/
def Bridges (a b c : Value) : Prop :=
  ∀ path : List Value, (∀ k ∈ path, k.Distinct) → HoldsMapping path a → HoldsMapping path c →
    ∀ v, reached? path b = some v → v.isMapping = true ∨ v = .null

section Bridging

variable {a b c : Value}

theorem reached?_cons {key v : Value} {path : List Value} {w : Value}
    (hv : under? key v = some w) : reached? (key :: path) v = reached? path w := by
  rw [reached?, hv, Option.bind_some]

/-- Values that bridge others do so under every key that all have. -/
theorem Bridges.under {key : Value} (hkey : key.Distinct) (h : Bridges a b c) {x y z : Value}
    (hx : under? key a = some x) (hy : under? key b = some y) (hz : under? key c = some z) :
    Bridges x y z := by
  intro path hpath ⟨as, has⟩ ⟨cs, hcs⟩ v hv
  apply h (key :: path)
  · simpa using ⟨hkey, hpath⟩
  · exact ⟨as, by rw [reached?_cons hx, has]⟩
  · exact ⟨cs, by rw [reached?_cons hz, hcs]⟩
  · rw [reached?_cons hy, hv]

/-- Between two mappings there is a mapping or null. -/
theorem Bridges.between {as cs : List (Value × Value)} (h : Bridges (.mapping as) b (.mapping cs)) :
    b.isMapping = true ∨ b = .null :=
  h [] (by simp) ⟨as, rfl⟩ ⟨cs, rfl⟩ b rfl

/-- Nothing needs to be bridged where there is no mapping on one side. -/
theorem bridges_of_not_mapping (h : a.isMapping = false ∨ c.isMapping = false) : Bridges a b c := by
  have hreached : ∀ {v : Value}, v.isMapping = false → ∀ path, ¬ HoldsMapping path v := by
    intro v hv path ⟨entries, hentries⟩
    cases path with
    | nil =>
        cases hentries
        cases hv
    | cons key path =>
        cases v with
        | mapping => cases hv
        | _ => cases hentries
  intro path _ ha hc
  rcases h with h | h
  · exact absurd ha (hreached h path)
  · exact absurd hc (hreached h path)

theorem bridges_null : Bridges a .null c := by
  intro path _ _ _ v hv
  cases path with
  | nil => exact .inr (Option.some.inj hv).symm
  | cons key path => cases hv

/-- A mapping bridges others if it does so under every key of the last one. -/
theorem bridges_mapping {bs cs : List (Value × Value)}
    (hcs : ∀ e ∈ cs, ∀ key : Value, key.same e.1 = true → ∀ x y, under? key a = some x →
      get? bs key = some y → Bridges x y e.2) : Bridges a (.mapping bs) (.mapping cs) := by
  intro path hpath ⟨as, has⟩ ⟨ds, hds⟩ v hv
  cases path with
  | nil =>
      cases hv
      exact .inl rfl
  | cons key path =>
      obtain ⟨x, hx, has⟩ := Option.bind_eq_some_iff.mp has
      obtain ⟨z, hz, hds⟩ := Option.bind_eq_some_iff.mp hds
      obtain ⟨y, hy, hv⟩ := Option.bind_eq_some_iff.mp hv
      obtain ⟨l, hmem, hsame⟩ := Yaml.Entries.exists_mem_of_get? hz
      have hbelow : Bridges x y z := hcs (l, z) hmem key hsame x y hx hy
      exact hbelow path (fun k hk => hpath k (List.mem_cons_of_mem _ hk)) ⟨as, has⟩ ⟨ds, hds⟩ v hv

end Bridging

/-! ## Associativity -/

/-- Under one key, three layers may be merged in either way if the values there may. -/
theorem stackOn_assoc {x y z : Option Value}
    (h : ∀ u v w, x = some u → y = some v → z = some w →
      merge (merge u v) w = merge u (merge v w)) :
    stackOn (stackOn x y) z = stackOn x (stackOn y z) := by
  cases x with
  | none => rfl
  | some u =>
      cases y with
      | none => rfl
      | some v =>
          cases z with
          | none => rfl
          | some w => simp [stackOn, laid, h u v w rfl rfl rfl]

/-- Entries may be merged in either way if the values under each key may. -/
theorem mergeEntries_assoc {as bs cs : List (Value × Value)} (ha : (Value.mapping as).Distinct)
    (hb : (Value.mapping bs).Distinct) (hc : (Value.mapping cs).Distinct)
    (h : ∀ k : Value, k.Distinct → ∀ u v w, get? as k = some u → get? bs k = some v →
      get? cs k = some w → merge (merge u v) w = merge u (merge v w)) :
    mergeEntries (mergeEntries as bs) cs = mergeEntries as (mergeEntries bs cs) := by
  have hdb := (Value.distinct_mapping.mp hb).1
  have hdc := (Value.distinct_mapping.mp hc).1
  have hab : (Value.mapping (mergeEntries as bs)).Distinct := by
    rw [← merge_mapping]
    exact distinct_merge ha hb
  have hbc : (Value.mapping (mergeEntries bs cs)).Distinct := by
    rw [← merge_mapping]
    exact distinct_merge hb hc
  have habc : (Value.mapping (mergeEntries as (mergeEntries bs cs))).Distinct := by
    rw [← merge_mapping]
    exact distinct_merge ha hbc
  have hdbc := (Value.distinct_mapping.mp hbc).1
  have hget : ∀ {k : Value}, k.Distinct →
      get? (mergeEntries as bs) k = stackOn (get? as k) (get? bs k) :=
    fun hk => get?_mergeEntries_key hdb hb.of_mem_keys ha.of_mem_keys hk
  apply Yaml.Entries.eq_of_keys_eq (Value.distinct_mapping.mp habc).1 habc.of_mem_keys
  · -- both have the keys of the first, the new ones of the second and then those of the third
    rw [keys_mergeEntries hdc hc.of_mem_keys hab.of_mem_keys,
      keys_mergeEntries hdb hb.of_mem_keys ha.of_mem_keys,
      keys_mergeEntries hdbc hbc.of_mem_keys ha.of_mem_keys,
      keys_mergeEntries hdc hc.of_mem_keys hb.of_mem_keys, List.filter_append, List.filter_filter,
      List.append_assoc]
    congr 2
    apply List.filter_congr
    intro k hk
    rw [hget (hc.of_mem_keys k hk)]
    cases get? as k <;> simp [stackOn]
  · intro k hk
    have hkey := habc.of_mem_keys k hk
    rw [get?_mergeEntries_key hdc hc.of_mem_keys hab.of_mem_keys hkey, hget hkey,
      get?_mergeEntries_key hdbc hbc.of_mem_keys ha.of_mem_keys hkey,
      get?_mergeEntries_key hdc hc.of_mem_keys hb.of_mem_keys hkey]
    exact stackOn_assoc (h k hkey)

/-- **Merging is associative where shapes do not clash.**  If the second of three values has a mapping,
null or nothing wherever the first and the third both have a mapping, it does not matter which two of them
are merged first. -/
theorem merge_assoc {a b c : Value} (ha : a.Distinct) (hb : b.Distinct) (hc : c.Distinct)
    (h : Bridges a b c) : merge (merge a b) c = merge a (merge b c) := by
  induction c using Value.mapping_induction generalizing a b with
  | other c hmapping =>
      rcases merge_of_not_isMapping hmapping b with ⟨rfl, -⟩ | ⟨hnull, hmerge⟩
      · rw [merge_null, merge_null]
      · have hover : ∀ v, merge v c = c := by
          intro v
          exact merge_of_not_mapping hnull (by rw [hmapping, Bool.and_false])
        rw [hover, hover, hover]
  | mapping cs ih =>
      cases hb' : b.isMapping with
      | false =>
          -- null leaves both neighbours as they are, anything else hides what cannot be a mapping
          rcases merge_of_not_isMapping hb' a with ⟨rfl, -⟩ | ⟨hnull, hmerge⟩
          · rw [merge_null, null_merge]
          · have ha' : a.isMapping = false := by
              by_contra hne
              obtain ⟨as, rfl⟩ := Value.exists_of_isMapping (by simpa using hne)
              rcases h.between with hmapping | rfl
              · simp [hb'] at hmapping
              · cases hnull
            rw [hmerge, merge_mapping_of_not_isMapping hb', merge_mapping_of_not_isMapping ha']
      | true =>
          obtain ⟨bs, rfl⟩ := Value.exists_of_isMapping hb'
          cases ha' : a.isMapping with
          | false =>
              rw [merge_mapping_of_not_isMapping ha', merge_mapping,
                merge_mapping_of_not_isMapping ha']
          | true =>
              obtain ⟨as, rfl⟩ := Value.exists_of_isMapping ha'
              rw [merge_mapping, merge_mapping, merge_mapping, merge_mapping]
              congr 1
              apply mergeEntries_assoc ha hb hc
              intro k hk u v w hu hv hw
              obtain ⟨l, hmem, -⟩ := Yaml.Entries.exists_mem_of_get? hw
              exact ih (l, w) hmem (ha.of_get? hu) (hb.of_get? hv) (hc.of_get? hw)
                (h.under hk hu hv hw)

/-- Three layers in which null and an absent key stand between mappings, and a number before one. -/
def sampleTriple : Value × Value × Value :=
  (.mapping [(.string "x", .mapping [(.string "p", .int 1)]), (.string "y", .int 2)],
    .mapping [(.string "y", .bool true), (.string "x", .null)],
    .mapping [(.string "x", .mapping [(.string "q", .int 3)]), (.string "y", .mapping [])])

/-- The sample layers may be merged in either way. -/
theorem sampleTriple_assoc :
    Bridges sampleTriple.1 sampleTriple.2.1 sampleTriple.2.2 ∧
      merge (merge sampleTriple.1 sampleTriple.2.1) sampleTriple.2.2 =
        merge sampleTriple.1 (merge sampleTriple.2.1 sampleTriple.2.2) ∧
      merge (merge sampleTriple.1 sampleTriple.2.1) sampleTriple.2.2 =
        .mapping [(.string "x", .mapping [(.string "p", .int 1), (.string "q", .int 3)]),
          (.string "y", .mapping [])] := by
  have hd : sampleTriple.1.Distinct ∧ sampleTriple.2.1.Distinct ∧ sampleTriple.2.2.Distinct := by
    simp [sampleTriple, Value.Distinct, Value.Everywhere, Value.EverywhereEntries, Value.KeysDistinct,
      Yaml.Entries.Distinct, Value.same]
  have hbridges : Bridges sampleTriple.1 sampleTriple.2.1 sampleTriple.2.2 := by
    apply bridges_mapping
    intro e he key hsame x y hx hy
    simp only [List.mem_cons, List.not_mem_nil, or_false] at he
    rcases he with rfl | rfl
    · obtain rfl := Value.same_string_iff.mp hsame
      obtain rfl : .null = y := Option.some.inj hy
      exact bridges_null
    · obtain rfl := Value.same_string_iff.mp hsame
      obtain rfl : .int 2 = x := Option.some.inj hx
      exact bridges_of_not_mapping (.inl rfl)
  exact ⟨hbridges, merge_assoc hd.1 hd.2.1 hd.2.2 hbridges, rfl⟩

/-- A number between two mappings, in place of null, would clash. -/
example :
    merge (merge sampleTriple.1 (.mapping [(.string "x", .int 0)])) sampleTriple.2.2 ≠
      merge sampleTriple.1 (merge (.mapping [(.string "x", .int 0)]) sampleTriple.2.2) := by
  intro h
  simp [sampleTriple, merge, mergeEntries, get?, Yaml.Entries.put, Value.same] at h

end ConfigDrive.Config
