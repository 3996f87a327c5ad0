/-
# ConfigDrive.Proofs.Config.Determining — settings, one by one.

Entries are read in their order, and reading may stop at each of them.  Where the keys are those of
settings and none is repeated, that order can be forgotten: what was read is determined by what a look-up
finds under each key, and so is whether anything was read at all (`Sound.readEntries_known`).  Everything
that is said about single settings, defaults and layers can be said setting by setting after that.
-/
import ConfigDrive.Proofs.Config.SameSettings

namespace ConfigDrive.Yaml.Entries

/-- An entry is found under the text that is its key. -/
theorem get?_string_of_eq {entries : List (Value × Value)} (hd : Distinct entries)
    {e : Value × Value} (he : e ∈ entries) {s : String} (hkey : e.1 = .string s) :
    get? entries (.string s) = some e.2 := by
  obtain ⟨k, v⟩ := e
  obtain rfl : k = .string s := hkey
  exact get?_string_of_mem hd he

end ConfigDrive.Yaml.Entries

namespace ConfigDrive.Config

open ConfigDrive.Yaml (Value)
open ConfigDrive.Yaml.Entries (get? keys)

/-! ## Keys of settings -/

section Keys

variable {φ : Type} {N : Naming φ} {entries : List (Value × Value)}

/-- The entry for a setting stands under its name. -/
theorem Naming.Knows.eq_name (h : N.Knows entries) {e : Value × Value} (he : e ∈ entries) {f : φ}
    (hkey : valueSource.text .key e.1 = .ok (N.name f)) : e.1 = .string (N.name f) := by
  obtain ⟨g, hg⟩ := h e he
  rw [text_eq_ok_iff, hg] at hkey
  rw [hg, ← hkey]
  rfl

/-- Distinct keys of settings are read as distinct texts. -/
theorem Naming.Knows.nodup_texts (h : N.Knows entries) (hd : Yaml.Entries.Distinct entries) :
    (entries.map fun e => valueSource.text .key e.1).Nodup := by
  rw [List.Nodup, List.pairwise_map]
  refine (Yaml.Entries.distinct_iff_pairwise.mp hd).imp_of_mem ?_
  intro e f he hf hne heq
  obtain ⟨g, hg⟩ := h e he
  have htext : valueSource.text .key e.1 = .ok (N.name g) := by
    rw [hg]
    rfl
  rw [hg, h.eq_name hf (heq ▸ htext), Value.string_same_self] at hne
  cases hne

theorem Naming.knows_record (N : Naming φ) (g : φ → Value) : N.Knows (N.record g) := by
  intro e he
  obtain ⟨f, -, rfl⟩ := List.mem_map.mp he
  exact ⟨f, rfl⟩

theorem Naming.distinct_record (N : Naming φ) (g : φ → Value) :
    Yaml.Entries.Distinct (N.record g) := by
  rw [Yaml.Entries.distinct_iff_pairwise, Naming.record, List.pairwise_map]
  refine N.nodup_all.imp ?_
  intro f f' hne
  rw [← Bool.not_eq_true]
  exact N.not_same_name hne.symm

end Keys

/-! ## What becomes of a setting -/

namespace Settings

variable {φ σ : Type} [DecidableEq φ] (S : Settings φ σ)

/-- A setting that showed `base` shows `x` when this is found for it: what a value is read as, and the same
as before if there is none. -/
def Becomes (f : φ) (base x : Value) : Option Value → Prop
  | none => x = base
  | some w => S.Puts valueSource f w x

variable {S} {entries : List (Value × Value)} {s s' : σ}

omit [DecidableEq φ] in
/-- What becomes of a setting is determined by what is found for it. -/
theorem Sound.becomes_unique (hS : S.Sound) {f : φ} {base : Value} {found : Option Value} {t t' : σ}
    (h : S.Becomes f base (S.shown t f) found) (h' : S.Becomes f base (S.shown t' f) found) :
    S.shown t f = S.shown t' f := by
  cases found with
  | none => exact Eq.trans h (Eq.symm h')
  | some w =>
      obtain ⟨s₀, s₁, hput, hs₁⟩ := h
      obtain ⟨t₀, t₁, hput', ht₁⟩ := h'
      rw [← hs₁, ← ht₁]
      exact hS.shown_eq hput hput'

/-- Each setting became what was found for it. -/
theorem becomes_of_readEntries (hknows : S.naming.Knows entries) (hd : Yaml.Entries.Distinct entries)
    (h : valueSource.readEntries S.naming.all S.naming.name (S.put valueSource) [] s entries = .ok s')
    (f : φ) :
    S.Becomes f (S.shown s f) (S.shown s' f) (get? entries (.string (S.naming.name f))) := by
  rcases S.shown_readEntries h f with ⟨hnot, hshown⟩ | ⟨e, he, hkey, hputs⟩
  · have hnone : get? entries (.string (S.naming.name f)) = none := by
      rw [Yaml.Entries.get?_eq_none_iff]
      intro e he
      rw [← Bool.not_eq_true, Value.string_same_iff]
      intro hname
      apply hnot e he
      rw [hname]
      rfl
    rw [hnone]
    exact hshown
  · rw [Yaml.Entries.get?_string_of_eq hd he (hknows.eq_name he hkey)]
    exact hputs

/-- **Known settings are read one by one.**  Entries whose keys are those of settings, none repeated, are
read as the state in which each setting is what was found for it, if there is one. -/
theorem Sound.readEntries_known (hS : S.Sound) (hknows : S.naming.Knows entries)
    (hd : Yaml.Entries.Distinct entries) :
    valueSource.readEntries S.naming.all S.naming.name (S.put valueSource) [] s entries = .ok s' ↔
      ∀ f, S.Becomes f (S.shown s f) (S.shown s' f) (get? entries (.string (S.naming.name f))) := by
  constructor
  · exact becomes_of_readEntries hknows hd
  · intro h
    have hfits : ∀ e ∈ entries, ∃ f, valueSource.text .key e.1 = .ok (S.naming.name f) ∧ f ∉ [] ∧
        Fits (S.put valueSource) f e.2 := by
      intro e he
      obtain ⟨f, hf⟩ := hknows e he
      have hbecomes := h f
      rw [Yaml.Entries.get?_string_of_eq hd he hf] at hbecomes
      obtain ⟨s₀, s₁, hput, -⟩ := hbecomes
      refine ⟨f, ?_, List.not_mem_nil, hS.fits hput⟩
      rw [hf]
      rfl
    obtain ⟨t, ht⟩ := exists_readEntries_of_fits S.naming hfits (hknows.nodup_texts hd) s
    have heq : t = s' := by
      apply hS.ext
      intro f
      exact hS.becomes_unique (becomes_of_readEntries hknows hd ht f) (h f)
    rw [ht, heq]

omit [DecidableEq φ] in
/-- A setting that is given as it shows is read back. -/
theorem becomes_shown (hfits : ∀ f, Fits (S.put valueSource) f (S.shown s f)) (f : φ) (base x : Value) :
    S.Becomes f base x (some (S.shown s f)) ↔ x = S.shown s f := by
  constructor
  · rintro ⟨s₁, s₂, hput, rfl⟩
    exact S.written hput
  · rintro rfl
    obtain ⟨s', hput⟩ := hfits f s
    exact ⟨s, s', hput, S.written hput⟩

end Settings

/-! ## The settings of a run -/

/-- What is read for the settings for the tool. -/
theorem puts_downstream_iff {w x : Value} :
    Settings.run.Puts valueSource .downstream w x ↔
      ∃ d, valueSource.readDownstream w = .ok d ∧ x = downstreamValue d := by
  constructor
  · rintro ⟨s, s', hput, rfl⟩
    obtain ⟨d, hd, hput⟩ := bind_eq_ok_iff.mp hput
    cases hput
    exact ⟨d, hd, rfl⟩
  · rintro ⟨d, hd, rfl⟩
    exact ⟨{}, _, bind_eq_ok_iff.mpr ⟨d, hd, rfl⟩, rfl⟩

/-- The settings that hold no others make up a configuration. -/
theorem eq_of_leaves {c e : Config} (h : ∀ leaf : Leaf, leaf.value c = leaf.value e) : c = e := by
  apply eq_of_fieldValue
  intro f
  cases f with
  | mountPoint => exact h .mountPoint
  | searchPath => exact h .searchPath
  | blkid => exact h .blkid
  | mount => exact h .mount
  | downstream =>
      have htool : c.downstream = e.downstream := by
        apply eq_of_downstreamFieldValue
        intro f
        cases f with
        | program => exact h .program
        | useNm => exact h .useNm
        | noDhcpFallback => exact h .noDhcpFallback
        | debug => exact h .debug
        | extraArgs => exact h .extraArgs
      rw [fieldValue, fieldValue, htool]

end ConfigDrive.Config
