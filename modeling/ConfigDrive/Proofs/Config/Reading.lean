/-
# ConfigDrive.Proofs.Config.Reading — when settings are read without a fault.

The entries of a mapping are read one after the other.  If that goes well, every key names a setting and
every value suits the setting it is read for (`exists_of_readEntries`); and the entries of a record are
read just as its settings come (`readEntries_record`).  Whether a value suits a setting does not depend
on what was read before (`fits_field`, `fits_downstreamField`), so the settings that a record gives may be
judged one by one.

The settings of a configuration are written as a record, and they are what that record is read as
(`ofValue_toValue`).
-/
import ConfigDrive.Proofs.Config.Record

namespace ConfigDrive.Config

open ConfigDrive.Yaml (Value Entries.get? Entries.put Entries.keys)

/-! ## Results -/

theorem bind_eq_ok_iff {ε α β : Type} {r : Except ε α} {f : α → Except ε β} {b : β} :
    (r >>= f) = .ok b ↔ ∃ a, r = .ok a ∧ f a = .ok b := by
  cases r with
  | ok a =>
      constructor
      · intro h
        exact ⟨a, rfl, h⟩
      · rintro ⟨a', h, hf⟩
        cases h
        exact hf
  | error e =>
      constructor
      · intro h
        cases h
      · rintro ⟨a, h, -⟩
        cases h

theorem within_eq_ok_iff {α : Type} {step : Step} {r : Except Fault α} {a : α} :
    within step r = .ok a ↔ r = .ok a := by
  cases r <;> simp [within]

/-! ## What suits a text, a truth value, a list and a mapping -/

theorem text_eq_ok_iff {expected : Expected} {v : Value} {s : String} :
    valueSource.text expected v = .ok s ↔ v.untag = .string s := by
  simp only [valueSource]
  cases v.untag <;> simp

theorem boolean_eq_ok_iff {v : Value} {b : Bool} :
    valueSource.boolean v = .ok b ↔ v.untag = .bool b := by
  simp only [valueSource]
  cases v.untag <;> simp

theorem entries_eq_ok_iff {expected : Expected} {v : Value} {entries : List (Value × Value)} :
    valueSource.entries expected v = .ok entries ↔
      v.untag = .mapping entries ∨ v.untag = .null ∧ entries = [] := by
  simp only [valueSource]
  cases v.untag <;> simp [eq_comm]

theorem items_eq_ok_iff {v : Value} {items : List Value} :
    valueSource.items v = .ok items ↔
      v.untag = .sequence items ∨ v.untag = .null ∧ items = [] := by
  simp only [valueSource]
  cases v.untag <;> simp [eq_comm]

/-! ## Reading entries -/

/-- The value suits the setting, whatever was read before. -/
def Fits {φ σ : Type} (put : φ → Value → σ → Except Fault σ) (f : φ) (v : Value) : Prop :=
  ∀ s, ∃ s', put f v s = .ok s'

section Entries

variable {φ σ : Type} [DecidableEq φ] (N : Naming φ) {put : φ → Value → σ → Except Fault σ}

/-- A key is taken for the setting that it names, the first time. -/
theorem newField_eq_ok_iff {seen : List φ} {key : String} {f : φ} :
    Source.newField N.all N.name seen key = .ok f ↔ N.name f = key ∧ f ∉ seen := by
  unfold Source.newField
  cases hfind : N.all.find? (N.name · == key) with
  | none =>
      have hnone := List.find?_eq_none.mp hfind f (N.mem_all f)
      have hne : N.name f ≠ key := by simpa using hnone
      simp [hne]
  | some g =>
      -- what was found has this name, and no other setting does
      have hg : N.name g = key := by simpa using List.find?_some hfind
      have hname : N.name f = key ↔ f = g := by
        rw [← hg]
        exact N.name_injective.eq_iff
      rw [hname]
      by_cases hseen : g ∈ seen
      · simp only [List.contains_iff_mem, hseen, if_true, reduceCtorEq, false_iff]
        rintro ⟨rfl, hnot⟩
        exact hnot hseen
      · simp only [List.contains_iff_mem, hseen, if_false, Except.ok.injEq]
        constructor
        · rintro rfl
          exact ⟨rfl, hseen⟩
        · rintro ⟨rfl, -⟩
          rfl

/-- An entry is read for the setting that its key names, which must be new; then the others are. -/
theorem exists_of_readEntries_cons {α : Type} {src : Source α} {put : φ → α → σ → Except Fault σ}
    {seen : List φ} {s s' : σ} {e : α × α} {rest : List (α × α)}
    (h : src.readEntries N.all N.name put seen s (e :: rest) = .ok s') :
    ∃ f s₁, src.text .key e.1 = .ok (N.name f) ∧ f ∉ seen ∧ put f e.2 s = .ok s₁ ∧
      src.readEntries N.all N.name put (f :: seen) s₁ rest = .ok s' := by
  obtain ⟨k, a⟩ := e
  rw [Source.readEntries] at h
  obtain ⟨key, hkey, h⟩ := bind_eq_ok_iff.mp h
  obtain ⟨f, hf, h⟩ := bind_eq_ok_iff.mp h
  obtain ⟨s₁, hput, hrest⟩ := bind_eq_ok_iff.mp h
  obtain ⟨hname, hnew⟩ := (newField_eq_ok_iff N).mp hf
  rw [← hname] at hkey
  exact ⟨f, s₁, hkey, hnew, within_eq_ok_iff.mp hput, hrest⟩

/-- An entry for a new setting is read, and then the others are. -/
theorem readEntries_cons {α : Type} {src : Source α} {put : φ → α → σ → Except Fault σ}
    {seen : List φ} {s s₁ : σ} {e : α × α} {f : φ} (hkey : src.text .key e.1 = .ok (N.name f))
    (hnew : f ∉ seen) (hput : put f e.2 s = .ok s₁) (rest : List (α × α)) :
    src.readEntries N.all N.name put seen s (e :: rest) =
      src.readEntries N.all N.name put (f :: seen) s₁ rest := by
  obtain ⟨k, a⟩ := e
  have hfield : Source.newField N.all N.name seen (N.name f) = .ok f :=
    (newField_eq_ok_iff N).mpr ⟨rfl, hnew⟩
  rw [Source.readEntries, hkey]
  show (Source.newField N.all N.name seen (N.name f) >>= _) = _
  rw [hfield]
  show (within _ (put f a s) >>= _) = _
  rw [show put f a s = .ok s₁ from hput]
  rfl

/-- **What was read named settings and suited them.** -/
theorem exists_of_readEntries {seen : List φ} {s s' : σ} {entries : List (Value × Value)}
    (h : valueSource.readEntries N.all N.name put seen s entries = .ok s') :
    ∀ e ∈ entries, ∃ f, e.1.untag = .string (N.name f) ∧ ∃ s₀ s₁, put f e.2 s₀ = .ok s₁ := by
  induction entries generalizing seen s with
  | nil => simp
  | cons e rest ih =>
      obtain ⟨f, s₁, hkey, -, hput, hrest⟩ := exists_of_readEntries_cons N h
      intro e' he
      rcases List.mem_cons.mp he with rfl | htail
      · exact ⟨f, text_eq_ok_iff.mp hkey, s, s₁, hput⟩
      · exact ih hrest e' htail

/-- Keys without tags that are the same as keys that were read name settings. -/
theorem knows_of_readEntries {seen : List φ} {s s' : σ} {entries known : List (Value × Value)}
    (h : valueSource.readEntries N.all N.name put seen s entries = .ok s')
    (hkeys : ∀ e ∈ known, ∃ k ∈ Entries.keys entries, e.1.same k = true)
    (huntagged : ∀ e ∈ known, e.1.isTagged = false) : N.Knows known := by
  intro e he
  obtain ⟨k, hk, hsame⟩ := hkeys e he
  obtain ⟨⟨k', w⟩, hmem, rfl⟩ := List.mem_map.mp hk
  -- the reader looks past tags; a key that is the same as one without a tag has none
  obtain ⟨f, hf, -⟩ := exists_of_readEntries N h _ hmem
  have hk' : k'.isTagged = false := by
    rw [← Value.isTagged_eq_of_same hsame]
    exact huntagged e he
  rw [Value.untag_eq_self hk'] at hf
  refine ⟨f, ?_⟩
  rw [← Value.same_string_iff, ← hf]
  exact hsame

/-- **What was read from entries laid over a record** had only known keys, and each setting had a value
that suits it. -/
theorem of_readEntries_mergeEntries {seen : List φ} {s s' : σ} {g : φ → Value}
    {overlay : List (Value × Value)} (hd : (Value.mapping overlay).Distinct)
    (huntagged : ∀ e ∈ overlay, e.1.isTagged = false)
    (h : valueSource.readEntries N.all N.name put seen s (mergeEntries (N.record g) overlay) = .ok s') :
    N.Knows overlay ∧
      ∀ f, ∃ s₀ s₁, put f (laid (g f) (Entries.get? overlay (.string (N.name f)))) s₀ = .ok s₁ := by
  obtain ⟨hdistinct, hparts⟩ := Value.distinct_mapping.mp hd
  have hknows : N.Knows overlay :=
    knows_of_readEntries N h (exists_key_mergeEntries fun e he => (hparts e he).1) huntagged
  refine ⟨hknows, fun f => ?_⟩
  rw [N.mergeEntries_record hknows hdistinct] at h
  obtain ⟨f', hf', hput⟩ := exists_of_readEntries N h _ (List.mem_map.mpr ⟨f, N.mem_all f, rfl⟩)
  have hname : N.name f = N.name f' := Value.string.inj hf'
  obtain rfl := N.name_injective hname
  exact hput

theorem readEntries_map {g : φ → Value} {l seen : List φ} (hl : l.Nodup) (hseen : ∀ f ∈ l, f ∉ seen)
    (s : σ) :
    valueSource.readEntries N.all N.name put seen s
        (l.map fun f => (Value.string (N.name f), g f)) =
      l.foldlM (fun s f => within (.field (N.name f)) (put f (g f) s)) s := by
  induction l generalizing seen s with
  | nil => rfl
  | cons f l ih =>
      obtain ⟨hnot, hl⟩ := List.nodup_cons.mp hl
      have hkey : valueSource.text .key (.string (N.name f)) = .ok (N.name f) := rfl
      have hnew : Source.newField N.all N.name seen (N.name f) = .ok f :=
        (newField_eq_ok_iff N).mpr ⟨rfl, hseen f (by simp)⟩
      -- the settings still to come are new after this one
      have hrest : ∀ f' ∈ l, f' ∉ f :: seen := by
        intro f' hf' hmem
        rcases List.mem_cons.mp hmem with rfl | htail
        · exact hnot hf'
        · exact hseen f' (List.mem_cons_of_mem _ hf') htail
      rw [List.map_cons, Source.readEntries, hkey, List.foldlM_cons]
      show (Source.newField N.all N.name seen (N.name f) >>= _) = _
      rw [hnew]
      exact bind_congr fun s₁ => ih hl hrest s₁

/-- **A record is read setting by setting.** -/
theorem readEntries_record (g : φ → Value) (s : σ) :
    valueSource.readEntries N.all N.name put [] s (N.record g) =
      N.all.foldlM (fun s f => within (.field (N.name f)) (put f (g f) s)) s :=
  readEntries_map N N.nodup_all (by simp) s

omit [DecidableEq φ] in
theorem exists_foldlM {l : List φ} {g : φ → Value} (hfits : ∀ f, Fits put f (g f)) (s : σ) :
    ∃ s', l.foldlM (fun s f => within (.field (N.name f)) (put f (g f) s)) s = .ok s' := by
  induction l generalizing s with
  | nil => exact ⟨s, rfl⟩
  | cons f l ih =>
      obtain ⟨s₁, hput⟩ := hfits f s
      obtain ⟨s', hrest⟩ := ih s₁
      refine ⟨s', ?_⟩
      rw [List.foldlM_cons]
      exact bind_eq_ok_iff.mpr ⟨s₁, within_eq_ok_iff.mpr hput, hrest⟩

/-- A record whose values suit their settings is read. -/
theorem exists_readEntries_record {g : φ → Value} (hfits : ∀ f, Fits put f (g f)) (s : σ) :
    ∃ s', valueSource.readEntries N.all N.name put [] s (N.record g) = .ok s' := by
  rw [readEntries_record]
  exact exists_foldlM N hfits s

end Entries

/-! ## The settings of a run and those for the tool -/

/-- The value of a setting for the tool. -/
def downstreamFieldValue (d : Downstream) : DownstreamField → Value
  | .program => .string d.program
  | .useNm => .bool d.useNm
  | .noDhcpFallback => .bool d.noDhcpFallback
  | .debug => .bool d.debug
  | .extraArgs => textsValue d.extraArgs

/-- The value of a setting of a run. -/
def fieldValue (c : Config) : Field → Value
  | .mountPoint => .string c.mountPoint
  | .searchPath => textsValue c.searchPath
  | .blkid => .string c.blkid
  | .mount => .string c.mount
  | .downstream => downstreamValue c.downstream

theorem downstreamValue_eq_record (d : Downstream) :
    downstreamValue d = .mapping (DownstreamField.naming.record (downstreamFieldValue d)) :=
  rfl

theorem toValue_eq_record (c : Config) :
    toValue c = .mapping (Field.naming.record (fieldValue c)) :=
  rfl

/-- A value that was read for a setting for the tool suits it at any time. -/
theorem fits_downstreamField {f : DownstreamField} {v : Value} {d d' : Downstream}
    (h : valueSource.putDownstream f v d = .ok d') : Fits valueSource.putDownstream f v := by
  intro s
  cases f <;> obtain ⟨a, ha, -⟩ := bind_eq_ok_iff.mp h <;>
    exact ⟨_, bind_eq_ok_iff.mpr ⟨a, ha, rfl⟩⟩

/-- A value that was read for a setting of a run suits it at any time. -/
theorem fits_field {f : Field} {v : Value} {c c' : Config}
    (h : valueSource.putField f v c = .ok c') : Fits valueSource.putField f v := by
  intro s
  cases f <;> obtain ⟨a, ha, -⟩ := bind_eq_ok_iff.mp h <;>
    exact ⟨_, bind_eq_ok_iff.mpr ⟨a, ha, rfl⟩⟩

theorem readDownstream_downstreamValue (d : Downstream) :
    valueSource.readDownstream (downstreamValue d) = .ok d := by
  have hargs : valueSource.texts .text (downstreamFieldValue d .extraArgs) = .ok d.extraArgs :=
    texts_textsValue .text d.extraArgs
  have hentries : valueSource.entries .downstream (downstreamValue d) =
      .ok (DownstreamField.naming.record (downstreamFieldValue d)) := rfl
  rw [Source.readDownstream, hentries]
  show valueSource.readEntries DownstreamField.naming.all DownstreamField.naming.name _ [] _ _ = _
  rw [readEntries_record]
  show DownstreamField.all.foldlM _ _ = _
  simp only [DownstreamField.all, List.foldlM_cons, List.foldlM_nil, Source.putDownstream, hargs]
  rfl

/-- The value of a setting for the tool is read back, whatever was read before. -/
theorem exists_putDownstream (d s : Downstream) (f : DownstreamField) :
    ∃ s', valueSource.putDownstream f (downstreamFieldValue d f) s = .ok s' ∧
      downstreamFieldValue s' f = downstreamFieldValue d f := by
  cases f with
  | extraArgs => exact ⟨_, bind_eq_ok_iff.mpr ⟨_, texts_textsValue _ _, rfl⟩, rfl⟩
  | _ => exact ⟨_, rfl, rfl⟩

/-- The value of a setting of a run is read back, whatever was read before. -/
theorem exists_putField (c s : Config) (f : Field) :
    ∃ s', valueSource.putField f (fieldValue c f) s = .ok s' ∧ fieldValue s' f = fieldValue c f := by
  cases f with
  | searchPath => exact ⟨_, bind_eq_ok_iff.mpr ⟨_, texts_textsValue _ _, rfl⟩, rfl⟩
  | downstream => exact ⟨_, bind_eq_ok_iff.mpr ⟨_, readDownstream_downstreamValue _, rfl⟩, rfl⟩
  | _ => exact ⟨_, rfl, rfl⟩

/-- **Settings that were written are read back.** -/
theorem ofValue_toValue (c : Config) : ofValue (toValue c) = .ok c := by
  have hpath : valueSource.texts .path (fieldValue c .searchPath) = .ok c.searchPath :=
    texts_textsValue .path c.searchPath
  have htool : valueSource.readDownstream (fieldValue c .downstream) = .ok c.downstream :=
    readDownstream_downstreamValue c.downstream
  have hentries : valueSource.entries .config (toValue c) =
      .ok (Field.naming.record (fieldValue c)) := rfl
  rw [ofValue, Source.readConfig, hentries]
  show valueSource.readEntries Field.naming.all Field.naming.name _ [] _ _ = _
  rw [readEntries_record]
  show Field.all.foldlM _ _ = _
  simp only [Field.all, List.foldlM_cons, List.foldlM_nil, Source.putField, hpath, htool]
  rfl

end ConfigDrive.Config
