/-
# ConfigDrive.Proofs.Config.Repeating — layers that come again.

What a layer gives is in place once it has been laid.  Laying it a second time changes nothing, and it
makes no difference either whether a result is laid over the layer it started from (`merge_repeated`).

A value laid over itself is that value (`merge_self`).  The other two laws are associativity: between two
mappings of which one comes again there is nothing but a mapping, so it does not matter which two of the
three are merged first, and two that are equal may be merged into one.
-/
import ConfigDrive.Proofs.Config.Associating

namespace ConfigDrive.Config

open ConfigDrive.Yaml (Value)
open ConfigDrive.Yaml.Entries (get? keys)

/-! ## A value over itself -/

/-- Entries laid over themselves stay as they are, if their values do. -/
theorem mergeEntries_self {entries : List (Value × Value)} (hd : (Value.mapping entries).Distinct)
    (hself : ∀ e ∈ entries, merge e.2 e.2 = e.2) : mergeEntries entries entries = entries := by
  have hdistinct := (Value.distinct_mapping.mp hd).1
  apply Yaml.Entries.eq_of_keys_eq hdistinct hd.of_mem_keys
  · -- every key is there already, so none is new
    have hnone : ((keys entries).filter fun k => (get? entries k).isNone) = [] := by
      rw [List.filter_eq_nil_iff]
      intro k hk
      obtain ⟨e, he, rfl⟩ := List.mem_map.mp hk
      simp [Yaml.Entries.get?_of_mem hdistinct hd.of_mem_keys he]
    rw [keys_mergeEntries hdistinct hd.of_mem_keys hd.of_mem_keys, hnone, List.append_nil]
  · intro k hk
    obtain ⟨e, he, rfl⟩ := List.mem_map.mp hk
    have hget := Yaml.Entries.get?_of_mem hdistinct hd.of_mem_keys he
    rw [get?_mergeEntries_key hdistinct hd.of_mem_keys hd.of_mem_keys (hd.of_mem_keys e.1 hk), hget,
      stackOn_some, Option.getD_some, hself e he]

/-- **A value laid over itself is that value.** -/
theorem merge_self {a : Value} (ha : a.Distinct) : merge a a = a := by
  induction a using Value.mapping_induction with
  | other a hmapping =>
      rcases merge_of_not_isMapping hmapping a with ⟨-, hmerge⟩ | ⟨-, hmerge⟩
      · exact hmerge
      · exact hmerge
  | mapping entries ih =>
      rw [merge_mapping, mergeEntries_self ha]
      intro e he
      exact ih e he ((Value.distinct_mapping.mp ha).2 e he).2

/-! ## A layer over what it was laid on -/

/-- What has been laid is not changed when it is laid again. -/
theorem merge_again {a b : Value} (ha : a.Distinct) (hb : b.Distinct) :
    merge (merge a b) b = merge a b := by
  induction b using Value.mapping_induction generalizing a with
  | other b hmapping =>
      rcases merge_of_not_isMapping hmapping a with ⟨rfl, -⟩ | ⟨hnull, hmerge⟩
      · rw [merge_null]
      · rw [hmerge, merge_self hb]
  | mapping bs ih =>
      cases ha' : a.isMapping with
      | false => rw [merge_mapping_of_not_isMapping ha', merge_self hb]
      | true =>
          obtain ⟨as, rfl⟩ := Value.exists_of_isMapping ha'
          have hself : mergeEntries bs bs = bs := by
            apply mergeEntries_self hb
            intro e he
            exact merge_self ((Value.distinct_mapping.mp hb).2 e he).2
          rw [merge_mapping, merge_mapping, mergeEntries_assoc ha hb hb, hself]
          intro k _ u v w hu hv hw
          obtain rfl : v = w := Option.some.inj (hv.symm.trans hw)
          obtain ⟨l, hmem, -⟩ := Yaml.Entries.exists_mem_of_get? hv
          rw [ih (l, v) hmem (ha.of_get? hu) (hb.of_get? hv), merge_self (hb.of_get? hv)]

/-- A result laid over the value it started from is that result. -/
theorem merge_over_base {a b : Value} (ha : a.Distinct) (hb : b.Distinct) :
    merge a (merge a b) = merge a b := by
  induction b using Value.mapping_induction generalizing a with
  | other b hmapping =>
      rcases merge_of_not_isMapping hmapping a with ⟨rfl, -⟩ | ⟨hnull, hmerge⟩
      · rw [merge_null, merge_self ha]
      · rw [hmerge, hmerge]
  | mapping bs ih =>
      cases ha' : a.isMapping with
      | false => rw [merge_mapping_of_not_isMapping ha', merge_mapping_of_not_isMapping ha']
      | true =>
          obtain ⟨as, rfl⟩ := Value.exists_of_isMapping ha'
          have hself : mergeEntries as as = as := by
            apply mergeEntries_self ha
            intro e he
            exact merge_self ((Value.distinct_mapping.mp ha).2 e he).2
          rw [merge_mapping, merge_mapping, ← mergeEntries_assoc ha ha hb, hself]
          intro k _ u v w hu hv hw
          obtain rfl : u = v := Option.some.inj (hu.symm.trans hv)
          obtain ⟨l, hmem, -⟩ := Yaml.Entries.exists_mem_of_get? hw
          rw [merge_self (ha.of_get? hu), ih (l, w) hmem (ha.of_get? hu) (hb.of_get? hw)]

/-- **Merging absorbs what comes again.**  A value laid over itself is that value; a layer that is laid a
second time changes nothing, and neither does laying the result over what it started from.  So a layer that
is read twice in a row counts once, in any stack. -/
theorem merge_repeated {a b : Value} (ha : a.Distinct) (hb : b.Distinct) :
    merge a a = a ∧ merge (merge a b) b = merge a b ∧ merge a (merge a b) = merge a b ∧
      ∀ before after : List Value, (∀ v ∈ before, v.Distinct) →
        mergeAll (before ++ b :: b :: after) = mergeAll (before ++ b :: after) := by
  refine ⟨merge_self ha, merge_again ha hb, merge_over_base ha hb, ?_⟩
  intro before after hbefore
  have htwice := merge_again (distinct_mergeAll hbefore) hb
  simp only [mergeAll, List.foldl_append, List.foldl_cons] at htwice ⊢
  rw [htwice]

/-- Two layers with null, an absent key and a key in two spellings. -/
def sampleRepeat : Value × Value :=
  let ab := Value.mapping [(.string "a", .int 1), (.string "b", .int 2)]
  let ba := Value.mapping [(.string "b", .int 2), (.string "a", .int 1)]
  (.mapping [(.string "x", .null), (ab, .mapping [(.string "p", .int 1), (.string "q", .null)])],
    .mapping [(.string "y", .sequence [.int 3]), (ba, .mapping [(.string "q", .int 2)]),
      (.string "x", .null)])

/-- What the sample layers give is not changed by either of them coming again. -/
theorem sampleRepeat_absorbed :
    sampleRepeat.1.Distinct ∧ sampleRepeat.2.Distinct ∧
      merge sampleRepeat.1 sampleRepeat.2 =
        .mapping [(.string "x", .null),
          (.mapping [(.string "a", .int 1), (.string "b", .int 2)],
            .mapping [(.string "p", .int 1), (.string "q", .int 2)]),
          (.string "y", .sequence [.int 3])] ∧
      merge (merge sampleRepeat.1 sampleRepeat.2) sampleRepeat.2 =
        merge sampleRepeat.1 sampleRepeat.2 ∧
      merge sampleRepeat.1 (merge sampleRepeat.1 sampleRepeat.2) =
        merge sampleRepeat.1 sampleRepeat.2 := by
  have hd : sampleRepeat.1.Distinct ∧ sampleRepeat.2.Distinct := by
    simp [sampleRepeat, Value.Distinct, Value.Everywhere, Value.EverywhereItems,
      Value.EverywhereEntries, Value.KeysDistinct, Yaml.Entries.Distinct, Value.same]
  obtain ⟨-, hagain, hbase, -⟩ := merge_repeated hd.1 hd.2
  exact ⟨hd.1, hd.2, rfl, hagain, hbase⟩

end ConfigDrive.Config
