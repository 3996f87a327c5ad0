/-
# ConfigDrive.Proofs.Config.Settings — collections of settings, read from any source.

The settings of a run and those for the tool are read in the same manner, from nodes as well as from
values: entry by entry, each for the setting that its key names.  `Settings` holds what the two have in
common.  The main result is that each setting is in the end what its one entry makes of it, and what it was
at the start if it has none (`Settings.shown_readEntries`).
-/
import ConfigDrive.Proofs.Config.Reading

namespace ConfigDrive.Config

open ConfigDrive.Yaml (Value Entries.keys)

/-! ## What entries make of each setting -/

section Readings

variable {α φ σ : Type} [DecidableEq φ] (N : Naming φ) {src : Source α}
  {put : φ → α → σ → Except Fault σ}

/-- Every key that was read names a setting. -/
theorem exists_key_of_readEntries {seen : List φ} {s s' : σ} {entries : List (α × α)}
    (h : src.readEntries N.all N.name put seen s entries = .ok s') :
    ∀ e ∈ entries, ∃ f, src.text .key e.1 = .ok (N.name f) ∧ f ∉ seen := by
  induction entries generalizing seen s with
  | nil => simp
  | cons e rest ih =>
      obtain ⟨f, s₁, hkey, hnew, -, hrest⟩ := exists_of_readEntries_cons N h
      intro e' he
      rcases List.mem_cons.mp he with rfl | htail
      · exact ⟨f, hkey, hnew⟩
      · obtain ⟨g, hg, hnot⟩ := ih hrest e' htail
        exact ⟨g, hg, fun hmem => hnot (List.mem_cons_of_mem _ hmem)⟩

/-- A setting that was read does not come again. -/
theorem ne_key_of_readEntries {seen : List φ} {s s' : σ} {entries : List (α × α)}
    (h : src.readEntries N.all N.name put seen s entries = .ok s') {f : φ} (hf : f ∈ seen) :
    ∀ e ∈ entries, src.text .key e.1 ≠ .ok (N.name f) := by
  intro e he hkey
  obtain ⟨g, hg, hnot⟩ := exists_key_of_readEntries N h e he
  rw [hkey, Except.ok.injEq] at hg
  exact hnot (N.name_injective hg ▸ hf)

/-- No two keys that were read are the same text. -/
theorem nodup_keys_of_readEntries {seen : List φ} {s s' : σ} {entries : List (α × α)}
    (h : src.readEntries N.all N.name put seen s entries = .ok s') :
    (entries.map fun e => src.text .key e.1).Nodup := by
  induction entries generalizing seen s with
  | nil => exact List.nodup_nil
  | cons e rest ih =>
      obtain ⟨f, s₁, hkey, -, -, hrest⟩ := exists_of_readEntries_cons N h
      rw [List.map_cons, List.nodup_cons, hkey]
      refine ⟨fun hmem => ?_, ih hrest⟩
      obtain ⟨e', he', hsame⟩ := List.mem_map.mp hmem
      exact ne_key_of_readEntries N hrest List.mem_cons_self e' he' hsame

end Readings

/-! ## Collections of settings -/

/-- A collection of settings that any source may give: their names, how each shows in a state as a value,
the state in which none was given, and how one is read.  Reading one leaves the others alone, and what
shows is read back. -/
structure Settings (φ σ : Type) where
  naming : Naming φ
  shown : σ → φ → Value
  start : σ
  expected : Expected
  put : {α : Type} → Source α → φ → α → σ → Except Fault σ
  others : ∀ {α : Type} {src : Source α} {f : φ} {a : α} {s s' : σ}, put src f a s = .ok s' →
    ∀ g, g ≠ f → shown s' g = shown s g
  written : ∀ {s s₁ s₂ : σ} {f : φ}, put valueSource f (shown s f) s₁ = .ok s₂ →
    shown s₂ f = shown s f

theorem putDownstream_others {α : Type} {src : Source α} {f : DownstreamField} {a : α}
    {d d' : Downstream} (h : src.putDownstream f a d = .ok d') :
    ∀ g, g ≠ f → downstreamFieldValue d' g = downstreamFieldValue d g := by
  intro g hg
  cases f <;> obtain ⟨b, -, h⟩ := bind_eq_ok_iff.mp h <;> cases h <;> cases g <;>
    first | rfl | exact absurd rfl hg

theorem putField_others {α : Type} {src : Source α} {f : Field} {a : α} {c c' : Config}
    (h : src.putField f a c = .ok c') : ∀ g, g ≠ f → fieldValue c' g = fieldValue c g := by
  intro g hg
  cases f <;> obtain ⟨b, -, h⟩ := bind_eq_ok_iff.mp h <;> cases h <;> cases g <;>
    first | rfl | exact absurd rfl hg

theorem putDownstream_written {d d₁ d₂ : Downstream} {f : DownstreamField}
    (h : valueSource.putDownstream f (downstreamFieldValue d f) d₁ = .ok d₂) :
    downstreamFieldValue d₂ f = downstreamFieldValue d f := by
  obtain ⟨d', hput, hshown⟩ := exists_putDownstream d d₁ f
  rw [hput] at h
  cases h
  exact hshown

theorem putField_written {c c₁ c₂ : Config} {f : Field}
    (h : valueSource.putField f (fieldValue c f) c₁ = .ok c₂) :
    fieldValue c₂ f = fieldValue c f := by
  obtain ⟨c', hput, hshown⟩ := exists_putField c c₁ f
  rw [hput] at h
  cases h
  exact hshown

theorem eq_of_downstreamValue {d₁ d₂ : Downstream} (h : downstreamValue d₁ = downstreamValue d₂) :
    d₁ = d₂ := by
  have h₁ := readDownstream_downstreamValue d₁
  rw [h, readDownstream_downstreamValue] at h₁
  exact (Except.ok.inj h₁).symm

theorem eq_of_downstreamFieldValue {d₁ d₂ : Downstream}
    (h : ∀ f, downstreamFieldValue d₁ f = downstreamFieldValue d₂ f) : d₁ = d₂ := by
  refine eq_of_downstreamValue ?_
  rw [downstreamValue_eq_record, downstreamValue_eq_record, funext h]

theorem eq_of_fieldValue {c₁ c₂ : Config} (h : ∀ f, fieldValue c₁ f = fieldValue c₂ f) : c₁ = c₂ := by
  have hwritten : toValue c₁ = toValue c₂ := by
    rw [toValue_eq_record, toValue_eq_record, funext h]
  have h₁ := ofValue_toValue c₁
  rw [hwritten, ofValue_toValue] at h₁
  exact (Except.ok.inj h₁).symm

/-- The settings for the tool. -/
def Settings.downstream : Settings DownstreamField Downstream where
  naming := DownstreamField.naming
  shown := downstreamFieldValue
  start := {}
  expected := .downstream
  put src := src.putDownstream
  others := putDownstream_others
  written := putDownstream_written

/-- The settings of a run. -/
def Settings.run : Settings Field Config where
  naming := Field.naming
  shown := fieldValue
  start := {}
  expected := .config
  put src := src.putField
  others := putField_others
  written := putField_written

namespace Settings

variable {φ σ : Type} [DecidableEq φ] (S : Settings φ σ)

/-- Read the settings of a collection. -/
def read {α : Type} (src : Source α) (a : α) : Except Fault σ := do
  let entries ← src.entries S.expected a
  src.readEntries S.naming.all S.naming.name (S.put src) [] S.start entries

/-- The settings for the tool are read as one collection. -/
theorem readDownstream_eq {α : Type} (src : Source α) (a : α) :
    src.readDownstream a = Settings.downstream.read src a :=
  rfl

/-- The settings of a run are read as another. -/
theorem readConfig_eq {α : Type} (src : Source α) (a : α) :
    src.readConfig a = Settings.run.read src a :=
  rfl

/-- Something is read for a setting, which then shows as a value. -/
def Puts {α : Type} (src : Source α) (f : φ) (a : α) (w : Value) : Prop :=
  ∃ s s', S.put src f a s = .ok s' ∧ S.shown s' f = w

/-- **Each setting is what its entry makes of it**, and as it was before if it has none. -/
theorem shown_readEntries {α : Type} {src : Source α} {seen : List φ} {s s' : σ}
    {entries : List (α × α)}
    (h : src.readEntries S.naming.all S.naming.name (S.put src) seen s entries = .ok s') (f : φ) :
    ((∀ e ∈ entries, src.text .key e.1 ≠ .ok (S.naming.name f)) ∧ S.shown s' f = S.shown s f) ∨
      ∃ e ∈ entries, src.text .key e.1 = .ok (S.naming.name f) ∧
        S.Puts src f e.2 (S.shown s' f) := by
  induction entries generalizing seen s with
  | nil =>
      cases h
      exact .inl ⟨by simp, rfl⟩
  | cons e rest ih =>
      obtain ⟨g, s₁, hkey, -, hput, hrest⟩ := exists_of_readEntries_cons S.naming h
      by_cases hf : f = g
      · -- the setting does not come again, so what shows now shows in the end
        subst hf
        rcases ih hrest with ⟨-, hshown⟩ | ⟨e', he', hsame, -⟩
        · exact .inr ⟨e, List.mem_cons_self, hkey, s, s₁, hput, hshown.symm⟩
        · exact absurd hsame (ne_key_of_readEntries S.naming hrest List.mem_cons_self e' he')
      · rcases ih hrest with ⟨hnot, hshown⟩ | ⟨e', he', hsame, hputs⟩
        · refine .inl ⟨List.forall_mem_cons.mpr ⟨?_, hnot⟩, ?_⟩
          · intro hsame
            rw [hkey, Except.ok.injEq] at hsame
            exact hf (S.naming.name_injective hsame.symm)
          · rw [hshown, S.others hput f hf]
        · exact .inr ⟨e', List.mem_cons_of_mem _ he', hsame, hputs⟩

/-! ## Records -/

/-- When a record is read, each setting becomes what its value is read as. -/
theorem puts_of_readEntries_record {g : φ → Value} {s s' : σ}
    (h : valueSource.readEntries S.naming.all S.naming.name (S.put valueSource) [] s
      (S.naming.record g) = .ok s') (f : φ) : S.Puts valueSource f (g f) (S.shown s' f) := by
  rcases S.shown_readEntries h f with ⟨hnot, -⟩ | ⟨e, he, hkey, hputs⟩
  · exact absurd rfl (hnot _ (List.mem_map.mpr ⟨f, S.naming.mem_all f, rfl⟩))
  · obtain ⟨f', -, rfl⟩ := List.mem_map.mp he
    obtain rfl : f' = f := S.naming.name_injective (Except.ok.inj hkey)
    exact hputs

/-- Keys over a record that were read carry no tags: under its tag a key would be there twice. -/
theorem not_isTagged_of_readEntries {g : φ → Value} {overlay : List (Value × Value)} {s s' : σ}
    (hd : (Value.mapping overlay).Distinct)
    (h : valueSource.readEntries S.naming.all S.naming.name (S.put valueSource) [] s
      (mergeEntries (S.naming.record g) overlay) = .ok s') : ∀ e ∈ overlay, e.1.isTagged = false := by
  intro e he
  have hkeys : ∀ e ∈ overlay, e.1.Distinct := fun e he => ((Value.distinct_mapping.mp hd).2 e he).1
  obtain ⟨k, hk, hsame⟩ : ∃ k ∈ Entries.keys (mergeEntries (S.naming.record g) overlay),
      e.1.same k = true := exists_key_mergeEntries hkeys e he
  obtain ⟨⟨k, w⟩, hmem, rfl⟩ := List.mem_map.mp hk
  obtain ⟨f, hf, -⟩ := exists_of_readEntries S.naming h _ hmem
  -- the plain key of that setting is there as well, and no two keys are read as the same text
  have hplain : Value.string (S.naming.name f) ∈ Entries.keys (S.naming.record g) :=
    List.mem_map.mpr ⟨_, List.mem_map.mpr ⟨f, S.naming.mem_all f, rfl⟩, rfl⟩
  obtain ⟨⟨k', w'⟩, hmem', hk'⟩ := List.mem_map.mp ((keys_prefix_mergeEntries _ overlay).subset hplain)
  have htext : valueSource.text .key k = .ok (S.naming.name f) := text_eq_ok_iff.mpr hf
  have htext' : valueSource.text .key k' = .ok (S.naming.name f) := by
    rw [text_eq_ok_iff, show k' = _ from hk']
    rfl
  have heq := List.inj_on_of_nodup_map (nodup_keys_of_readEntries S.naming h) hmem hmem'
    (htext.trans htext'.symm)
  have hkey : k = .string (S.naming.name f) := (congrArg Prod.fst heq).trans hk'
  rw [Value.isTagged_eq_of_same hsame, show (k, w).1 = _ from hkey]
  rfl

end Settings

end ConfigDrive.Config
