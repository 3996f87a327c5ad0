/-
# ConfigDrive.Proofs.Config.SameSettings — values that are the same give the same settings.

Sameness ignores the order of entries, and reading does not: it stops at the first fault, and a second
entry for a setting is a fault.  Still the settings that are read depend on the value only up to sameness,
and so does whether it is read at all (`ofValue_same`).

Entries are read without a fault exactly when each names a setting and suits it, and no two name the same
one (`exists_readEntries_of_fits`); entries that have partners among others pass that on to them.  Once both
are read, each setting shows what its one entry was read as, which is what the partner is read as, too.
-/
import ConfigDrive.Proofs.Config.Overlay
import ConfigDrive.Proofs.Config.Settings

namespace ConfigDrive.Yaml.Value

/-! ## Parts of values that are the same -/

theorem Distinct.untag {v : Value} (h : v.Distinct) : v.untag.Distinct := by
  cases v with
  | tagged tag w =>
      rw [Value.untag]
      exact Distinct.untag (distinct_tagged.mp h)
  | _ => exact h

theorem same_untag {v w : Value} (h : v.same w = true) : v.untag.same w.untag = true := by
  cases v with
  | tagged s a =>
      cases w with
      | tagged t b =>
          simp only [same, Bool.and_eq_true] at h
          rw [Value.untag, Value.untag]
          exact same_untag h.2
      | _ => cases h
  | _ =>
      have hw : w.isTagged = false := by
        rw [← isTagged_eq_of_same h]
        rfl
      rw [untag_eq_self hw]
      exact h

theorem bool_same_iff {b : Bool} {v : Value} : (Value.bool b).same v = true ↔ v = .bool b := by
  cases v with
  | bool b' =>
      rw [same, beq_iff_eq, Value.bool.injEq]
      exact eq_comm
  | _ => simp [same]

theorem null_same_iff {v : Value} : Value.null.same v = true ↔ v = .null := by
  cases v <;> simp [same]

theorem exists_of_sequence_same {as : List Value} {v : Value} (h : (Value.sequence as).same v = true) :
    ∃ bs, v = .sequence bs ∧ List.Forall₂ (fun a b => a.same b = true) as bs := by
  cases v with
  | sequence bs => exact ⟨bs, rfl, sameItems_iff.mp h⟩
  | _ => cases h

theorem exists_of_mapping_same {as : List (Value × Value)} {v : Value}
    (h : (Value.mapping as).same v = true) :
    ∃ bs, v = .mapping bs ∧ (Value.mapping as).same (.mapping bs) = true := by
  cases v with
  | mapping bs => exact ⟨bs, rfl, h⟩
  | _ => cases h

/-- Every entry of a mapping has a partner in one that is the same. -/
theorem exists_same_entry {as bs : List (Value × Value)}
    (h : (Value.mapping as).same (.mapping bs) = true) {e : Value × Value} (he : e ∈ as) :
    ∃ f ∈ bs, e.1.same f.1 = true ∧ e.2.same f.2 = true := by
  obtain ⟨w, hget, hsame⟩ := (same_mapping_iff.mp h).2 e he
  obtain ⟨k, hmem, hkey⟩ := Entries.exists_mem_of_get? hget
  exact ⟨(k, w), hmem, hkey, hsame⟩

end ConfigDrive.Yaml.Value

namespace ConfigDrive.Config

open ConfigDrive.Yaml (Value)

/-! ## Texts, truth values, lists and mappings -/

section Primitives

variable {v w : Value}

theorem text_same (h : v.same w = true) {expected : Expected} {s : String}
    (hread : valueSource.text expected v = .ok s) : valueSource.text expected w = .ok s := by
  have hsame := Value.same_untag h
  rw [text_eq_ok_iff] at hread ⊢
  rw [hread] at hsame
  exact Value.string_same_iff.mp hsame

theorem boolean_same (h : v.same w = true) {b : Bool} (hread : valueSource.boolean v = .ok b) :
    valueSource.boolean w = .ok b := by
  have hsame := Value.same_untag h
  rw [boolean_eq_ok_iff] at hread ⊢
  rw [hread] at hsame
  exact Value.bool_same_iff.mp hsame

theorem items_same (h : v.same w = true) {as : List Value} (hread : valueSource.items v = .ok as) :
    ∃ bs, valueSource.items w = .ok bs ∧ List.Forall₂ (fun a b => a.same b = true) as bs := by
  have hsame := Value.same_untag h
  rcases items_eq_ok_iff.mp hread with hseq | ⟨hnull, rfl⟩
  · rw [hseq] at hsame
    obtain ⟨bs, hbs, hitems⟩ := Value.exists_of_sequence_same hsame
    exact ⟨bs, items_eq_ok_iff.mpr (.inl hbs), hitems⟩
  · rw [hnull] at hsame
    exact ⟨[], items_eq_ok_iff.mpr (.inr ⟨Value.null_same_iff.mp hsame, rfl⟩), .nil⟩

theorem textsFrom_same {as bs : List Value} (h : List.Forall₂ (fun a b => a.same b = true) as bs)
    {expected : Expected} {index : Nat} {ss : List String}
    (hread : valueSource.textsFrom expected index as = .ok ss) :
    valueSource.textsFrom expected index bs = .ok ss := by
  induction h generalizing index ss with
  | nil => exact hread
  | cons hab _ ih =>
      obtain ⟨s, hs, hread⟩ := bind_eq_ok_iff.mp hread
      obtain ⟨rest, hrest, hread⟩ := bind_eq_ok_iff.mp hread
      have htext := text_same hab (within_eq_ok_iff.mp hs)
      exact bind_eq_ok_iff.mpr
        ⟨s, within_eq_ok_iff.mpr htext, bind_eq_ok_iff.mpr ⟨rest, ih hrest, hread⟩⟩

theorem texts_same (h : v.same w = true) {expected : Expected} {ss : List String}
    (hread : valueSource.texts expected v = .ok ss) : valueSource.texts expected w = .ok ss := by
  obtain ⟨as, has, hread⟩ := bind_eq_ok_iff.mp hread
  obtain ⟨bs, hbs, hitems⟩ := items_same h has
  exact bind_eq_ok_iff.mpr ⟨bs, hbs, textsFrom_same hitems hread⟩

theorem entries_same (hv : v.Distinct) (hw : w.Distinct) (h : v.same w = true) {expected : Expected}
    {as : List (Value × Value)} (hread : valueSource.entries expected v = .ok as) :
    ∃ bs, valueSource.entries expected w = .ok bs ∧ (Value.mapping as).Distinct ∧
      (Value.mapping bs).Distinct ∧ (Value.mapping as).same (.mapping bs) = true := by
  have hsame := Value.same_untag h
  rcases entries_eq_ok_iff.mp hread with hmapping | ⟨hnull, rfl⟩
  · rw [hmapping] at hsame
    obtain ⟨bs, hbs, hentries⟩ := Value.exists_of_mapping_same hsame
    exact ⟨bs, entries_eq_ok_iff.mpr (.inl hbs), hmapping ▸ hv.untag, hbs ▸ hw.untag, hentries⟩
  · rw [hnull] at hsame
    have hempty : (Value.mapping []).Distinct := Value.distinct_mapping.mpr ⟨trivial, by simp⟩
    exact ⟨[], entries_eq_ok_iff.mpr (.inr ⟨Value.null_same_iff.mp hsame, rfl⟩), hempty, hempty, rfl⟩

end Primitives

/-! ## Entries that are read without a fault -/

/-- Entries that name new settings and suit them, no two the same, are read without a fault. -/
theorem exists_readEntries_of_fits {φ σ : Type} [DecidableEq φ] (N : Naming φ)
    {put : φ → Value → σ → Except Fault σ} {seen : List φ} {entries : List (Value × Value)}
    (hfits : ∀ e ∈ entries, ∃ f, valueSource.text .key e.1 = .ok (N.name f) ∧ f ∉ seen ∧
      Fits put f e.2)
    (hnodup : (entries.map fun e => valueSource.text .key e.1).Nodup) (s : σ) :
    ∃ s', valueSource.readEntries N.all N.name put seen s entries = .ok s' := by
  induction entries generalizing seen s with
  | nil => exact ⟨s, rfl⟩
  | cons e rest ih =>
      obtain ⟨f, hkey, hnew, hsuits⟩ := hfits e List.mem_cons_self
      rw [List.map_cons, List.nodup_cons] at hnodup
      obtain ⟨s₁, hput⟩ := hsuits s
      -- the setting that was just read does not come again
      have hrest : ∀ e' ∈ rest, ∃ g, valueSource.text .key e'.1 = .ok (N.name g) ∧ g ∉ f :: seen ∧
          Fits put g e'.2 := by
        intro e' he'
        obtain ⟨g, hg, hgnew, hgsuits⟩ := hfits e' (List.mem_cons_of_mem _ he')
        refine ⟨g, hg, ?_, hgsuits⟩
        rintro (_ | ⟨_, hmem⟩)
        · apply hnodup.1
          rw [hkey, ← hg]
          exact List.mem_map_of_mem he'
        · exact hgnew hmem
      obtain ⟨s', hs'⟩ := ih hrest hnodup.2 s₁
      exact ⟨s', by rw [readEntries_cons N hkey hnew hput, hs']⟩

namespace Settings

variable {φ σ : Type} [DecidableEq φ] (S : Settings φ σ)

/-- Settings that a value determines up to sameness, one by one and all together. -/
structure Sound : Prop where
  put_same : ∀ {f : φ} {v w : Value} {s s' : σ}, v.Distinct → w.Distinct → v.same w = true →
    S.put valueSource f v s = .ok s' → S.put valueSource f w s = .ok s'
  fits : ∀ {f : φ} {v : Value} {s s' : σ}, S.put valueSource f v s = .ok s' →
    Fits (S.put valueSource) f v
  shown_eq : ∀ {f : φ} {v : Value} {s s' t t' : σ}, S.put valueSource f v s = .ok s' →
    S.put valueSource f v t = .ok t' → S.shown s' f = S.shown t' f
  ext : ∀ {s t : σ}, (∀ f, S.shown s f = S.shown t f) → s = t

variable {S} {as bs : List (Value × Value)} {s s' : σ}

/-- Entries that are the same as others that were read are read without a fault. -/
theorem Sound.exists_readEntries (hS : S.Sound) (ha : (Value.mapping as).Distinct)
    (hb : (Value.mapping bs).Distinct) (h : (Value.mapping as).same (.mapping bs) = true)
    (hread : valueSource.readEntries S.naming.all S.naming.name (S.put valueSource) [] s as = .ok s') :
    ∃ t, valueSource.readEntries S.naming.all S.naming.name (S.put valueSource) [] s bs = .ok t := by
  have hback : ∀ e ∈ bs, ∃ f ∈ as, e.1.same f.1 = true ∧ e.2.same f.2 = true :=
    fun e he => Value.exists_same_entry (ha.same_symm hb h) he
  have hda := (Value.distinct_mapping.mp ha).2
  obtain ⟨hdbs, hdb⟩ := Value.distinct_mapping.mp hb
  have hnamed := exists_of_readEntries S.naming hread
  apply exists_readEntries_of_fits
  · intro e he
    obtain ⟨e', he', hkey, hvalue⟩ := hback e he
    obtain ⟨f, hf, s₀, s₁, hput⟩ := hnamed e' he'
    have hkey' := (hdb e he).1.same_symm (hda e' he').1 hkey
    have hvalue' := (hdb e he).2.same_symm (hda e' he').2 hvalue
    exact ⟨f, text_same hkey' (text_eq_ok_iff.mpr hf), List.not_mem_nil,
      hS.fits (hS.put_same (hda e' he').2 (hdb e he).2 hvalue' hput)⟩
  · rw [List.Nodup, List.pairwise_map]
    refine (Yaml.Entries.distinct_iff_pairwise.mp hdbs).imp_of_mem ?_
    intro e g he hg hne heq
    -- partners of keys that are read as one text are one entry, so the keys would be the same
    obtain ⟨e', he', hkey, -⟩ := hback e he
    obtain ⟨g', hg', hkeyg, -⟩ := hback g hg
    obtain ⟨f, hf, -⟩ := hnamed e' he'
    have hpartners : e' = g' := by
      apply List.inj_on_of_nodup_map (nodup_keys_of_readEntries S.naming hread) he' hg'
      have htext : valueSource.text .key e'.1 = .ok (S.naming.name f) := text_eq_ok_iff.mpr hf
      have htexte := text_same ((hdb e he).1.same_symm (hda e' he').1 hkey) htext
      rw [htext, text_same hkeyg (heq ▸ htexte)]
    subst hpartners
    have hsame := (hdb e he).1.same_trans (hda e' he').1 (hdb g hg).1 hkey
      ((hdb g hg).1.same_symm (hda e' he').1 hkeyg)
    rw [hne] at hsame
    cases hsame

/-- What was read from entries that are the same shows the same settings. -/
theorem Sound.readEntries_eq (hS : S.Sound) (ha : (Value.mapping as).Distinct)
    (hb : (Value.mapping bs).Distinct) (h : (Value.mapping as).same (.mapping bs) = true)
    (hread : valueSource.readEntries S.naming.all S.naming.name (S.put valueSource) [] s as = .ok s')
    {t : σ}
    (hread' : valueSource.readEntries S.naming.all S.naming.name (S.put valueSource) [] s bs = .ok t) :
    s' = t := by
  have hda := (Value.distinct_mapping.mp ha).2
  have hdb := (Value.distinct_mapping.mp hb).2
  apply hS.ext
  intro f
  rcases S.shown_readEntries hread f with ⟨hnot, hshown⟩ | ⟨e, he, hkey, s₁, s₂, hput, hshown⟩
  · rcases S.shown_readEntries hread' f with ⟨-, hshown'⟩ | ⟨g, hg, hkeyg, -⟩
    · rw [hshown, hshown']
    · obtain ⟨e, he, hsame, -⟩ := Value.exists_same_entry (ha.same_symm hb h) hg
      exact absurd (text_same hsame hkeyg) (hnot e he)
  · obtain ⟨e', he', hsame, hvalue⟩ := Value.exists_same_entry h he
    have hkey' := text_same hsame hkey
    rcases S.shown_readEntries hread' f with ⟨hnot, -⟩ | ⟨g, hg, hkeyg, t₁, t₂, hput', hshown'⟩
    · exact absurd hkey' (hnot e' he')
    · obtain rfl : e' = g :=
        List.inj_on_of_nodup_map (nodup_keys_of_readEntries S.naming hread') he' hg
          (hkey'.trans hkeyg.symm)
      rw [← hshown, ← hshown']
      exact hS.shown_eq (hS.put_same (hda e he).2 (hdb e' he').2 hvalue hput) hput'

/-- **Values that are the same are read as the same settings.** -/
theorem Sound.read_same (hS : S.Sound) {v w : Value} (hv : v.Distinct) (hw : w.Distinct)
    (h : v.same w = true) (hread : S.read valueSource v = .ok s) : S.read valueSource w = .ok s := by
  obtain ⟨as, has, hread⟩ := bind_eq_ok_iff.mp hread
  obtain ⟨bs, hbs, ha, hb, hsame⟩ := entries_same hv hw h has
  obtain ⟨t, ht⟩ := hS.exists_readEntries ha hb hsame hread
  rw [hS.readEntries_eq ha hb hsame hread ht]
  exact bind_eq_ok_iff.mpr ⟨bs, hbs, ht⟩

end Settings

/-! ## The two collections -/

theorem sound_downstream : Settings.downstream.Sound where
  put_same {f v w s s'} _ _ h hput := by
    cases f <;> obtain ⟨a, ha, hput⟩ := bind_eq_ok_iff.mp hput
    case program => exact bind_eq_ok_iff.mpr ⟨a, text_same h ha, hput⟩
    case extraArgs => exact bind_eq_ok_iff.mpr ⟨a, texts_same h ha, hput⟩
    all_goals exact bind_eq_ok_iff.mpr ⟨a, boolean_same h ha, hput⟩
  fits := fits_downstreamField
  shown_eq {f v s s' t t'} hput hput' := by
    cases f <;> obtain ⟨a, ha, hput⟩ := bind_eq_ok_iff.mp hput <;>
      obtain ⟨b, hb, hput'⟩ := bind_eq_ok_iff.mp hput' <;> cases hput <;> cases hput' <;>
      cases ha.symm.trans hb <;> rfl
  ext := eq_of_downstreamFieldValue

theorem sound_run : Settings.run.Sound where
  put_same {f v w s s'} hv hw h hput := by
    cases f <;> obtain ⟨a, ha, hput⟩ := bind_eq_ok_iff.mp hput
    case searchPath => exact bind_eq_ok_iff.mpr ⟨a, texts_same h ha, hput⟩
    case downstream =>
      rw [Settings.readDownstream_eq] at ha
      have hb := sound_downstream.read_same hv hw h ha
      exact bind_eq_ok_iff.mpr ⟨a, hb, hput⟩
    all_goals exact bind_eq_ok_iff.mpr ⟨a, text_same h ha, hput⟩
  fits := fits_field
  shown_eq {f v s s' t t'} hput hput' := by
    cases f <;> obtain ⟨a, ha, hput⟩ := bind_eq_ok_iff.mp hput <;>
      obtain ⟨b, hb, hput'⟩ := bind_eq_ok_iff.mp hput' <;> cases hput <;> cases hput' <;>
      cases ha.symm.trans hb <;> rfl
  ext := eq_of_fieldValue

/-- **Two values that are the same either give the same configuration or are both refused.** -/
theorem ofValue_same {v w : Value} (hv : v.Distinct) (hw : w.Distinct) (h : v.same w = true)
    (c : Config) : ofValue v = .ok c ↔ ofValue w = .ok c := by
  rw [ofValue, ofValue, Settings.readConfig_eq, Settings.readConfig_eq]
  constructor
  · exact sound_run.read_same hv hw h
  · exact sound_run.read_same hw hv (hv.same_symm hw h)

end ConfigDrive.Config
