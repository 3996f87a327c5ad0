/-
# ConfigDrive.Proofs.Config.Erasing — values without their tags.

The reader looks past tags wherever they stand.  From a value without its tags it reads what it reads from
the value itself, down to the fault that it finds (`ofValue_eraseTags`).

Keys that differ in their tags only are distinct keys, and one key when the tags are erased.  So a mapping
may repeat a key once its tags are gone; the other way round a value repeats no key if it repeats none
without its tags (`Distinct.of_eraseTags`), because values that are the same stay the same.
-/
import ConfigDrive.Proofs.Config.SameSettings

namespace ConfigDrive.Yaml.Value

/-! ## Induction over all parts of a value -/

/-- The value has no parts and no tag. -/
def isAtom : Value → Bool
  | .sequence _ | .mapping _ | .tagged _ _ => false
  | _ => true

/-- Induction on the parts of a value, the keys of mappings among them. -/
@[elab_as_elim]
theorem parts_induction {P : Value → Prop} (atom : ∀ v, v.isAtom = true → P v)
    (sequence : ∀ items, (∀ v ∈ items, P v) → P (.sequence items))
    (mapping : ∀ entries, (∀ e ∈ entries, P e.1 ∧ P e.2) → P (.mapping entries))
    (tagged : ∀ tag v, P v → P (.tagged tag v)) (v : Value) : P v := by
  induction hn : sizeOf v using Nat.strong_induction_on generalizing v with
  | _ n ih =>
      cases v with
      | sequence items =>
          refine sequence items fun v hv => ?_
          have hlt := sizeOf_item_lt hv
          exact ih (sizeOf v) (by omega) v rfl
      | mapping entries =>
          refine mapping entries fun e he => ?_
          obtain ⟨hkey, hvalue⟩ := sizeOf_key_lt he
          exact ⟨ih (sizeOf e.1) (by omega) e.1 rfl, ih (sizeOf e.2) (by omega) e.2 rfl⟩
      | tagged tag v =>
          rw [Value.tagged.sizeOf_spec] at hn
          exact tagged tag v (ih (sizeOf v) (by omega) v rfl)
      | null | bool | int | float | string => exact atom _ rfl

theorem isAtom_eq_of_same {v w : Value} (h : v.same w = true) : v.isAtom = w.isAtom := by
  cases v <;> cases w <;> first | rfl | exact absurd h Bool.false_ne_true

/-! ## Erasing tags -/

mutual

/-- The value without the tags on it and in it. -/
def eraseTags : Value → Value
  | .sequence items => .sequence (eraseItems items)
  | .mapping entries => .mapping (eraseEntries entries)
  | .tagged _ v => eraseTags v
  | v => v

/-- These values without tags. -/
def eraseItems : List Value → List Value
  | [] => []
  | v :: vs => eraseTags v :: eraseItems vs

/-- These entries without tags on keys or values. -/
def eraseEntries : List (Value × Value) → List (Value × Value)
  | [] => []
  | (k, v) :: es => (eraseTags k, eraseTags v) :: eraseEntries es

end

/-- An entry without tags. -/
def eraseEntry (e : Value × Value) : Value × Value :=
  (e.1.eraseTags, e.2.eraseTags)

theorem eraseTags_sequence (items : List Value) :
    (Value.sequence items).eraseTags = .sequence (items.map eraseTags) := by
  have hitems : eraseItems items = items.map eraseTags := by
    induction items with
    | nil => rfl
    | cons v vs ih => rw [eraseItems, ih, List.map_cons]
  rw [eraseTags, hitems]

theorem eraseTags_mapping (entries : List (Value × Value)) :
    (Value.mapping entries).eraseTags = .mapping (entries.map eraseEntry) := by
  have hentries : eraseEntries entries = entries.map eraseEntry := by
    induction entries with
    | nil => rfl
    | cons e es ih =>
        obtain ⟨k, v⟩ := e
        rw [eraseEntries, ih, List.map_cons, eraseEntry]
  rw [eraseTags, hentries]

theorem eraseTags_tagged (tag : Tag) (v : Value) : (Value.tagged tag v).eraseTags = v.eraseTags := by
  rw [eraseTags]

theorem eraseTags_of_isAtom {v : Value} (h : v.isAtom = true) : v.eraseTags = v := by
  cases v <;> first | rfl | cases h

theorem tagFree_eraseTags (v : Value) : v.eraseTags.TagFree := by
  induction v using parts_induction with
  | atom v h =>
      rw [eraseTags_of_isAtom h]
      cases v <;> first | rfl | cases h
  | sequence items ih =>
      rw [eraseTags_sequence]
      refine everywhere_sequence.mpr ⟨rfl, ?_⟩
      exact List.forall_mem_map.mpr ih
  | mapping entries ih =>
      rw [eraseTags_mapping]
      refine everywhere_mapping.mpr ⟨rfl, ?_⟩
      exact List.forall_mem_map.mpr ih
  | tagged tag v ih =>
      rw [eraseTags_tagged]
      exact ih

/-- Where there are no tags, none are erased. -/
theorem TagFree.eraseTags_eq {v : Value} (h : v.TagFree) : v.eraseTags = v := by
  induction v using parts_induction with
  | atom v hatom => exact eraseTags_of_isAtom hatom
  | sequence items ih =>
      have hparts := (everywhere_sequence.mp h).2
      have hitems : items.map eraseTags = items.map id :=
        List.map_congr_left fun v hv => ih v hv (hparts v hv)
      rw [eraseTags_sequence, hitems, List.map_id]
  | mapping entries ih =>
      have hparts := (everywhere_mapping.mp h).2
      have hentries : entries.map eraseEntry = entries.map id := by
        refine List.map_congr_left fun e he => ?_
        rw [eraseEntry, (ih e he).1 (hparts e he).1, (ih e he).2 (hparts e he).2, id]
      rw [eraseTags_mapping, hentries, List.map_id]
  | tagged tag v _ => cases h.top

/-! ## Keys without tags -/

/-- A mapping repeats no key without its tags if its own keys are distinct without theirs, and its parts
repeat none. -/
theorem distinct_eraseTags_mapping {entries : List (Value × Value)} :
    (Value.mapping entries).eraseTags.Distinct ↔
      (entries.Pairwise fun e f => e.1.eraseTags.same f.1.eraseTags = false) ∧
        ∀ e ∈ entries, e.1.eraseTags.Distinct ∧ e.2.eraseTags.Distinct := by
  rw [eraseTags_mapping, distinct_mapping, Entries.distinct_iff_pairwise, List.pairwise_map,
    List.forall_mem_map]
  rfl

/-- What is the same stays the same without tags. -/
theorem same_eraseTags {v w : Value} (hv : v.eraseTags.Distinct) (hw : w.eraseTags.Distinct)
    (h : v.same w = true) : v.eraseTags.same w.eraseTags = true := by
  induction v using parts_induction generalizing w with
  | atom v hatom =>
      have hatom' := isAtom_eq_of_same h
      rw [hatom] at hatom'
      rw [eraseTags_of_isAtom hatom, eraseTags_of_isAtom hatom'.symm]
      exact h
  | sequence items ih =>
      obtain ⟨items', rfl, hitems⟩ := exists_of_sequence_same h
      rw [eraseTags_sequence] at hv hw ⊢
      rw [eraseTags_sequence, same, sameItems_iff, List.forall₂_map_left_iff,
        List.forall₂_map_right_iff]
      rw [distinct_sequence, List.forall_mem_map] at hv hw
      rw [List.forall₂_iff_zip] at hitems ⊢
      refine ⟨hitems.1, ?_⟩
      intro a b hab
      obtain ⟨ha, hb⟩ := List.of_mem_zip hab
      exact ih a ha (hv a ha) (hw b hb) (hitems.2 hab)
  | mapping entries ih =>
      obtain ⟨entries', rfl, -⟩ := exists_of_mapping_same h
      obtain ⟨hlength, -⟩ := same_mapping_iff.mp h
      rw [eraseTags_mapping] at hv hw
      rw [eraseTags_mapping, eraseTags_mapping, same_mapping_iff]
      refine ⟨by rw [List.length_map, List.length_map, hlength], ?_⟩
      rw [List.forall_mem_map]
      intro e he
      -- the partner of an entry is the partner still
      obtain ⟨f, hf, hkey, hvalue⟩ := exists_same_entry h he
      have hdist := (distinct_mapping.mp hv).2 _ (List.mem_map_of_mem he)
      have hdist' := (distinct_mapping.mp hw).2 _ (List.mem_map_of_mem hf)
      have hfound := Entries.get?_of_mem (distinct_mapping.mp hw).1 hw.of_mem_keys
        (List.mem_map_of_mem hf)
      refine ⟨f.2.eraseTags, ?_, (ih e he).2 hdist.2 hdist'.2 hvalue⟩
      have hsame := (ih e he).1 hdist.1 hdist'.1 hkey
      exact (Entries.get?_congr hw.of_mem_keys hdist.1 hdist'.1 hsame).trans hfound
  | tagged tag v ih =>
      cases w with
      | tagged tag' w =>
          rw [same, Bool.and_eq_true] at h
          rw [eraseTags_tagged] at hv hw ⊢
          rw [eraseTags_tagged]
          exact ih hv hw h.2
      | _ => cases h

/-- **A value that repeats no key without its tags repeats none.** -/
theorem Distinct.of_eraseTags {v : Value} (h : v.eraseTags.Distinct) : v.Distinct := by
  induction v using parts_induction with
  | atom v hatom =>
      rw [eraseTags_of_isAtom hatom] at h
      exact h
  | sequence items ih =>
      rw [eraseTags_sequence, distinct_sequence, List.forall_mem_map] at h
      exact distinct_sequence.mpr fun v hv => ih v hv (h v hv)
  | mapping entries ih =>
      obtain ⟨hentries, hparts⟩ := distinct_eraseTags_mapping.mp h
      refine distinct_mapping.mpr ⟨?_, fun e he => ?_⟩
      · rw [Entries.distinct_iff_pairwise]
        refine hentries.imp_of_mem ?_
        intro e f he hf hne
        rw [← Bool.not_eq_true] at hne ⊢
        exact fun hsame => hne (same_eraseTags (hparts e he).1 (hparts f hf).1 hsame)
      · exact ⟨(ih e he).1 (hparts e he).1, (ih e he).2 (hparts e he).2⟩
  | tagged tag v ih =>
      rw [eraseTags_tagged] at h
      exact distinct_tagged.mpr (ih h)

end ConfigDrive.Yaml.Value

namespace ConfigDrive.Config

open ConfigDrive.Yaml (Value)
open ConfigDrive.Yaml.Value (eraseTags eraseEntry eraseTags_sequence eraseTags_mapping
  eraseTags_of_isAtom parts_induction)

/-! ## Reading without tags -/

theorem text_eraseTags (expected : Expected) (v : Value) :
    valueSource.text expected v.eraseTags = valueSource.text expected v := by
  induction v using parts_induction with
  | atom v hatom => rw [eraseTags_of_isAtom hatom]
  | sequence items =>
      rw [eraseTags_sequence]
      rfl
  | mapping entries =>
      rw [eraseTags_mapping]
      rfl
  | tagged tag v ih => exact ih

theorem boolean_eraseTags (v : Value) :
    valueSource.boolean v.eraseTags = valueSource.boolean v := by
  induction v using parts_induction with
  | atom v hatom => rw [eraseTags_of_isAtom hatom]
  | sequence items =>
      rw [eraseTags_sequence]
      rfl
  | mapping entries =>
      rw [eraseTags_mapping]
      rfl
  | tagged tag v ih => exact ih

/-- The items of a list without tags are its items, without tags. -/
theorem items_eraseTags (v : Value) :
    valueSource.items v.eraseTags = (valueSource.items v).map (List.map eraseTags) := by
  induction v using parts_induction with
  | atom v hatom =>
      rw [eraseTags_of_isAtom hatom]
      cases v <;> first | rfl | cases hatom
  | sequence items =>
      rw [eraseTags_sequence]
      rfl
  | mapping entries =>
      rw [eraseTags_mapping]
      rfl
  | tagged tag v ih => exact ih

/-- The entries of a mapping without tags are its entries, without tags. -/
theorem entries_eraseTags (expected : Expected) (v : Value) :
    valueSource.entries expected v.eraseTags =
      (valueSource.entries expected v).map (List.map eraseEntry) := by
  induction v using parts_induction with
  | atom v hatom =>
      rw [eraseTags_of_isAtom hatom]
      cases v <;> first | rfl | cases hatom
  | sequence items =>
      rw [eraseTags_sequence]
      rfl
  | mapping entries =>
      rw [eraseTags_mapping]
      rfl
  | tagged tag v ih => exact ih

theorem texts_eraseTags (expected : Expected) (v : Value) :
    valueSource.texts expected v.eraseTags = valueSource.texts expected v := by
  have hitems : ∀ (items : List Value) (index : Nat),
      valueSource.textsFrom expected index (items.map eraseTags) =
        valueSource.textsFrom expected index items := by
    intro items
    induction items with
    | nil => exact fun index => rfl
    | cons v vs ih =>
        intro index
        rw [List.map_cons, Source.textsFrom, Source.textsFrom, text_eraseTags, ih]
  rw [Source.texts, Source.texts, items_eraseTags]
  cases valueSource.items v with
  | error fault => rfl
  | ok items => exact hitems items 0

/-- Entries are read as they are without tags, if their values are. -/
theorem readEntries_eraseTags {φ σ : Type} [DecidableEq φ] {all : List φ} {name : φ → String}
    {put : φ → Value → σ → Except Fault σ} (hput : ∀ f v s, put f v.eraseTags s = put f v s)
    (seen : List φ) (s : σ) (entries : List (Value × Value)) :
    valueSource.readEntries all name put seen s (entries.map eraseEntry) =
      valueSource.readEntries all name put seen s entries := by
  induction entries generalizing seen s with
  | nil => rfl
  | cons e rest ih =>
      obtain ⟨k, v⟩ := e
      rw [List.map_cons, eraseEntry, Source.readEntries, Source.readEntries, text_eraseTags]
      refine bind_congr fun key => bind_congr fun f => ?_
      rw [hput]
      exact bind_congr fun s₁ => ih (f :: seen) s₁

theorem Settings.read_eraseTags {φ σ : Type} [DecidableEq φ] (S : Settings φ σ)
    (hput : ∀ f v s, S.put valueSource f v.eraseTags s = S.put valueSource f v s) (v : Value) :
    S.read valueSource v.eraseTags = S.read valueSource v := by
  rw [Settings.read, Settings.read, entries_eraseTags]
  cases valueSource.entries S.expected v with
  | error fault => rfl
  | ok entries => exact readEntries_eraseTags hput [] S.start entries

theorem putDownstream_eraseTags (f : DownstreamField) (v : Value) (d : Downstream) :
    valueSource.putDownstream f v.eraseTags d = valueSource.putDownstream f v d := by
  cases f <;>
    simp only [Source.putDownstream, text_eraseTags, boolean_eraseTags, texts_eraseTags]

theorem readDownstream_eraseTags (v : Value) :
    valueSource.readDownstream v.eraseTags = valueSource.readDownstream v :=
  Settings.downstream.read_eraseTags putDownstream_eraseTags v

theorem putField_eraseTags (f : Field) (v : Value) (c : Config) :
    valueSource.putField f v.eraseTags c = valueSource.putField f v c := by
  cases f <;>
    simp only [Source.putField, text_eraseTags, texts_eraseTags, readDownstream_eraseTags]

/-- **Tags mean nothing to the reader.**  Without its tags a value gives the same configuration, or the
same fault. -/
theorem ofValue_eraseTags (v : Value) : ofValue v.eraseTags = ofValue v :=
  Settings.run.read_eraseTags putField_eraseTags v

end ConfigDrive.Config
