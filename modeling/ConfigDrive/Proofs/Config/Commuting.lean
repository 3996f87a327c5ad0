/-
# ConfigDrive.Proofs.Config.Commuting — layers that may be laid in either order.

Two values are free of conflicts if nothing in one of them would replace anything in the other: one is
null, or both are mappings and the values under every common key are free of conflicts.  Laid over any
third value, in either order, they give the same value; only the order of the keys may differ
(`same_merge_merge`).  Since the reader takes values that are the same for the same settings, such layers
may change places in a stack (`mergeAll_commute`).

The base may be anything.  If it is no mapping, whichever overlay comes first puts a mapping in its place,
as if there had been an empty one (`merge_eq_entriesOf`).
-/
import ConfigDrive.Proofs.Config.SameSettings

namespace ConfigDrive.Yaml

open Entries (get? keys)

/-! ## Mappings with the same look-ups -/

variable {as bs : List (Value × Value)}

/-- A mapping with no key that another lacks is no longer than that one. -/
theorem Entries.length_le_of_get? (ha : (Value.mapping as).Distinct)
    (hb : (Value.mapping bs).Distinct)
    (h : ∀ k : Value, k.Distinct → (get? as k).isSome = true → (get? bs k).isSome = true) :
    as.length ≤ bs.length := by
  obtain ⟨hdas, hda⟩ := Value.distinct_mapping.mp ha
  have hdb := (Value.distinct_mapping.mp hb).2
  apply Value.length_le_of_partner (R := fun e f : Value × Value => e.1.same f.1 = true)
  · intro e he
    have hget := Entries.get?_of_mem hdas ha.of_mem_keys he
    have hsome := h e.1 (hda e he).1 (by rw [hget, Option.isSome_some])
    obtain ⟨w, hw⟩ := Option.isSome_iff_exists.mp hsome
    obtain ⟨k, hmem, hsame⟩ := Entries.exists_mem_of_get? hw
    exact ⟨(k, w), hmem, hsame⟩
  · refine (Entries.distinct_iff_pairwise.mp hdas).imp_of_mem ?_
    intro e e' he he' hne f hf hef he'f
    have hback := (hda e' he').1.same_symm (hdb f hf).1 he'f
    have hsame := (hda e he).1.same_trans (hdb f hf).1 (hda e' he').1 hef hback
    rw [hne] at hsame
    cases hsame

section Related

variable {α β : Type} {R : α → β → Prop}

theorem isSome_eq_of_rel {x : Option α} {y : Option β} (h : Option.Rel R x y) :
    x.isSome = y.isSome := by
  cases h <;> rfl

theorem exists_of_rel_some {a : α} {y : Option β} (h : Option.Rel R (some a) y) :
    ∃ b, y = some b ∧ R a b := by
  cases h with
  | some hab => exact ⟨_, rfl, hab⟩

end Related

/-- **Mappings in which the same is found under every key are the same.** -/
theorem Value.same_mapping_of_get? (ha : (Value.mapping as).Distinct)
    (hb : (Value.mapping bs).Distinct)
    (h : ∀ k : Value, k.Distinct →
      Option.Rel (fun v w => v.same w = true) (get? as k) (get? bs k)) :
    (Value.mapping as).same (.mapping bs) = true := by
  rw [Value.same_mapping_iff]
  constructor
  · apply Nat.le_antisymm
    · apply Entries.length_le_of_get? ha hb
      intro k hk hsome
      rw [← isSome_eq_of_rel (h k hk), hsome]
    · apply Entries.length_le_of_get? hb ha
      intro k hk hsome
      rw [isSome_eq_of_rel (h k hk), hsome]
  · obtain ⟨hdas, hda⟩ := Value.distinct_mapping.mp ha
    intro e he
    have hrel := h e.1 (hda e he).1
    rw [Entries.get?_of_mem hdas ha.of_mem_keys he] at hrel
    exact exists_of_rel_some hrel

end ConfigDrive.Yaml

namespace ConfigDrive.Config

open ConfigDrive.Yaml (Value)
open ConfigDrive.Yaml.Entries (get? keys)

/-! ## Layers free of conflicts -/

/-- Neither value would replace anything in the other. -/
inductive ConflictFree : Value → Value → Prop
  | null_left (v : Value) : ConflictFree .null v
  | null_right (v : Value) : ConflictFree v .null
  | mapping {bs cs : List (Value × Value)}
      (common : ∀ e ∈ bs, ∀ w, get? cs e.1 = some w → ConflictFree e.2 w) :
      ConflictFree (.mapping bs) (.mapping cs)

/-- The entries over which a mapping is laid. -/
def entriesOf : Value → List (Value × Value)
  | .mapping entries => entries
  | _ => []

theorem distinct_entriesOf {v : Value} (h : v.Distinct) : (Value.mapping (entriesOf v)).Distinct := by
  cases v with
  | mapping entries => exact h
  | _ => exact Value.distinct_mapping.mpr ⟨trivial, by simp [entriesOf]⟩

/-- A mapping laid over anything gives a mapping. -/
theorem merge_eq_entriesOf (base : Value) {overlay : List (Value × Value)}
    (hov : (Value.mapping overlay).Distinct) :
    merge base (.mapping overlay) = .mapping (mergeEntries (entriesOf base) overlay) := by
  cases h : base.isMapping with
  | true =>
      obtain ⟨entries, rfl⟩ := Value.exists_of_isMapping h
      exact merge_mapping entries overlay
  | false =>
      have hnone : entriesOf base = [] := by
        cases base with
        | mapping entries => cases h
        | _ => rfl
      rw [merge_mapping_of_not_isMapping h, hnone,
        mergeEntries_nil (Value.distinct_mapping.mp hov).1 hov.of_mem_keys]

theorem stackOn_stackOn (x : Option Value) (v w : Value) :
    stackOn (stackOn x (some v)) (some w) = some (merge (merge (x.getD .null) v) w) := by
  rw [stackOn_some, stackOn_some, Option.getD_some]

/-- **Values free of conflicts may be laid over a third one in either order.** -/
theorem same_merge_merge {a b c : Value} (ha : a.Distinct) (hb : b.Distinct) (hc : c.Distinct)
    (h : ConflictFree b c) : (merge (merge a b) c).same (merge (merge a c) b) = true := by
  induction h generalizing a with
  | null_left v =>
      rw [merge_null, merge_null]
      exact (distinct_merge ha hc).same_refl
  | null_right v =>
      rw [merge_null, merge_null]
      exact (distinct_merge ha hb).same_refl
  | @mapping bs cs _ ih =>
      have habc := distinct_merge (distinct_merge ha hb) hc
      have hacb := distinct_merge (distinct_merge ha hc) hb
      have hab := distinct_merge ha hb
      have hac := distinct_merge ha hc
      have hbase := distinct_entriesOf ha
      have hdb := (Value.distinct_mapping.mp hb).1
      have hdc := (Value.distinct_mapping.mp hc).1
      rw [merge_eq_entriesOf a hb] at hab habc ⊢
      rw [merge_eq_entriesOf a hc] at hac hacb ⊢
      rw [merge_mapping] at habc hacb ⊢
      rw [merge_mapping]
      apply Value.same_mapping_of_get? habc hacb
      intro k hk
      have hgetb := get?_mergeEntries_key hdb hb.of_mem_keys hbase.of_mem_keys hk
      have hgetc := get?_mergeEntries_key hdc hc.of_mem_keys hbase.of_mem_keys hk
      have hrefl : ∀ {o : Option Value}, (∀ v, o = some v → v.Distinct) →
          Option.Rel (fun v w => v.same w = true) o o := by
        intro o ho
        cases o with
        | none => exact .none
        | some v => exact .some (ho v rfl).same_refl
      rw [get?_mergeEntries_key hdc hc.of_mem_keys hab.of_mem_keys hk,
        get?_mergeEntries_key hdb hb.of_mem_keys hac.of_mem_keys hk]
      cases hy : get? bs k with
      | none =>
          rw [hgetb, hy, stackOn_none, stackOn_none, ← hgetc]
          exact hrefl fun v hv => hac.of_get? hv
      | some y =>
          cases hz : get? cs k with
          | none =>
              rw [hgetc, hz, stackOn_none, stackOn_none, ← hy, ← hgetb]
              exact hrefl fun v hv => hab.of_get? hv
          | some z =>
              -- a key of both: its values are free of conflicts, too
              obtain ⟨l, hmem, hsame⟩ := Yaml.Entries.exists_mem_of_get? hy
              have hl := ((Value.distinct_mapping.mp hb).2 _ hmem).1
              have hzl : get? cs l = some z := by
                rw [← Yaml.Entries.get?_congr hc.of_mem_keys hk hl hsame]
                exact hz
              have hx : ((get? (entriesOf a) k).getD .null).Distinct := by
                cases hget : get? (entriesOf a) k with
                | none => trivial
                | some x => exact hbase.of_get? hget
              rw [hgetb, hgetc, hy, hz, stackOn_stackOn, stackOn_stackOn]
              exact .some (ih (l, y) hmem z hzl hx (hb.of_get? hy) (hc.of_get? hz))

/-- **Layers free of conflicts may change places.**  Over any value they give the same value in either
order, and from both the same configuration is read, or none from either. -/
theorem mergeAll_commute {a b c : Value} (ha : a.Distinct) (hb : b.Distinct) (hc : c.Distinct)
    (h : ConflictFree b c) :
    (mergeAll [a, b, c]).same (mergeAll [a, c, b]) = true ∧
      ∀ d, ofValue (mergeAll [a, b, c]) = .ok d ↔ ofValue (mergeAll [a, c, b]) = .ok d := by
  have hstack : ∀ v w : Value, mergeAll [a, v, w] = merge (merge a v) w := by
    intro v w
    rw [mergeAll, List.foldl_cons, null_merge]
    rfl
  have hsame := same_merge_merge ha hb hc h
  rw [hstack, hstack]
  refine ⟨hsame, ?_⟩
  intro d
  exact ofValue_same (distinct_merge (distinct_merge ha hb) hc) (distinct_merge (distinct_merge ha hc) hb)
    hsame d

/-- Two layers that give different settings for the tool; where they meet in one, one of them is null. -/
def samplePair : Value × Value :=
  (.mapping [
      (.string "downstream", .mapping [(.string "debug", .bool true), (.string "use_nm", .null)]),
      (.string "blkid", .null)],
    .mapping [
      (.string "blkid", .string "/sbin/blkid"),
      (.string "downstream", .mapping [(.string "use_nm", .bool true)])])

/-- Over a number, which either layer replaces, the keys come in different orders, and the configuration
is the same. -/
theorem samplePair_commutes :
    ConflictFree samplePair.1 samplePair.2 ∧
      (mergeAll [.int 5, samplePair.1, samplePair.2]).same
        (mergeAll [.int 5, samplePair.2, samplePair.1]) = true ∧
      mergeAll [.int 5, samplePair.1, samplePair.2] ≠ mergeAll [.int 5, samplePair.2, samplePair.1] ∧
      ofValue (mergeAll [.int 5, samplePair.2, samplePair.1]) =
        .ok { blkid := "/sbin/blkid", downstream := { debug := true, useNm := true } } := by
  have hd : samplePair.1.Distinct ∧ samplePair.2.Distinct := by
    simp [samplePair, Value.Distinct, Value.Everywhere, Value.EverywhereEntries, Value.KeysDistinct,
      Yaml.Entries.Distinct, Value.same]
  have hfree : ConflictFree samplePair.1 samplePair.2 := by
    apply ConflictFree.mapping
    intro e he w hw
    simp only [List.mem_cons, List.not_mem_nil, or_false] at he
    rcases he with rfl | rfl
    · cases hw
      apply ConflictFree.mapping
      intro e he w hw
      simp only [List.mem_cons, List.not_mem_nil, or_false] at he
      rcases he with rfl | rfl
      · cases hw
      · exact .null_left w
    · exact .null_left w
  have hcommute := mergeAll_commute (a := .int 5) trivial hd.1 hd.2 hfree
  have hread : ofValue (mergeAll [.int 5, samplePair.1, samplePair.2]) =
      .ok { blkid := "/sbin/blkid", downstream := { debug := true, useNm := true } } := by
    rfl
  refine ⟨hfree, hcommute.1, ?_, (hcommute.2 _).mp hread⟩
  intro h
  have hfirst := congrArg (fun v => (entriesOf v).map fun e => (e.2).isMapping) h
  cases hfirst

end ConfigDrive.Config
