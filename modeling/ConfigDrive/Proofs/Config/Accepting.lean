/-
# ConfigDrive.Proofs.Config.Accepting — which values are configurations.

The reader goes through the entries of a mapping in their order, keeps what it has read so far, and stops
at the first fault.  Which values it accepts can be said without any of that: `Naming.Accepts` is a
grammar, one level for the settings of a run and one for those for the tool, and a value without tags is
accepted exactly when it is in that grammar (`exists_ofValue_iff`).  The configuration that it gives has for
each setting what is found at its path, and the default where nothing is (`ofValue_eq_ok_iff`).

No order is mentioned there, so entries that are accepted are accepted in any order, and give the same
(`Rearranged.ofValue_eq_ok`).
-/
import ConfigDrive.Proofs.Config.Determining

namespace ConfigDrive.Config

open ConfigDrive.Yaml (Value)
open ConfigDrive.Yaml.Entries (get? keys)

/-! ## The grammar -/

/-- The value is a text. -/
def IsText (v : Value) : Prop :=
  ∃ s, v = .string s

/-- The value is a truth value. -/
def IsSwitch (v : Value) : Prop :=
  ∃ b, v = .bool b

/-- The value is null or a list of texts. -/
def IsTexts (v : Value) : Prop :=
  v = .null ∨ ∃ ss, v = textsValue ss

theorem IsTexts.distinct {v : Value} (h : IsTexts v) : v.Distinct := by
  rcases h with rfl | ⟨ss, rfl⟩
  · trivial
  · exact Value.distinct_sequence.mpr (List.forall_mem_map.mpr fun s _ => trivial)

namespace Naming

variable {φ : Type} (N : Naming φ)

/-- Every key is that of a setting, none comes twice, and every value suits its setting. -/
structure WellFormed (suits : φ → Value → Prop) (entries : List (Value × Value)) : Prop where
  known : N.Knows entries
  once : (keys entries).Nodup
  suited : ∀ f v, (.string (N.name f), v) ∈ entries → suits f v

/-- The value is null or a mapping of settings. -/
def Accepts (suits : φ → Value → Prop) (v : Value) : Prop :=
  v = .null ∨ ∃ entries, v = .mapping entries ∧ N.WellFormed suits entries

end Naming

/-- The value suits the setting for the tool. -/
def DownstreamField.Suits : DownstreamField → Value → Prop
  | .program => IsText
  | .useNm => IsSwitch
  | .noDhcpFallback => IsSwitch
  | .debug => IsSwitch
  | .extraArgs => IsTexts

/-- The value suits the setting of a run. -/
def Field.Suits : Field → Value → Prop
  | .mountPoint => IsText
  | .searchPath => IsTexts
  | .blkid => IsText
  | .mount => IsText
  | .downstream => DownstreamField.naming.Accepts DownstreamField.Suits

/-! ## Texts, truth values and lists -/

section Primitives

variable {v : Value} (ht : v.TagFree)

include ht

theorem exists_text_iff (expected : Expected) :
    (∃ s, valueSource.text expected v = .ok s) ↔ IsText v := by
  simp only [text_eq_ok_iff, ht.untag, IsText]

theorem exists_boolean_iff : (∃ b, valueSource.boolean v = .ok b) ↔ IsSwitch v := by
  simp only [boolean_eq_ok_iff, ht.untag, IsSwitch]

theorem exists_texts_iff (expected : Expected) :
    (∃ ss, valueSource.texts expected v = .ok ss) ↔ IsTexts v := by
  constructor
  · rintro ⟨ss, hread⟩
    cases hnull : v.isNull with
    | true => exact .inl (Value.eq_null_of_isNull hnull)
    | false => exact .inr ⟨ss, (written_texts expected).eq_write ht hnull hread⟩
  · rintro (rfl | ⟨ss, rfl⟩)
    · exact ⟨[], rfl⟩
    · exact ⟨ss, texts_textsValue expected ss⟩

end Primitives

/-! ## Entries -/

section Entries

variable {φ : Type} {N : Naming φ} {suits : φ → Value → Prop} {entries : List (Value × Value)}

/-- Entries in good form repeat no key. -/
theorem Naming.WellFormed.distinct (h : N.WellFormed suits entries) :
    Yaml.Entries.Distinct entries := by
  rw [Yaml.Entries.distinct_iff_keys]
  refine h.once.imp_of_mem ?_
  intro k l hk _ hne
  obtain ⟨e, he, rfl⟩ := List.mem_map.mp hk
  obtain ⟨f, hf⟩ := h.known e he
  rw [← Bool.not_eq_true, hf, Value.string_same_iff, ← hf]
  exact fun heq => hne heq.symm

/-- Good form does not depend on the order. -/
theorem Naming.WellFormed.perm (h : N.WellFormed suits entries) {others : List (Value × Value)}
    (hperm : entries.Perm others) : N.WellFormed suits others where
  known e he := h.known e (hperm.mem_iff.mpr he)
  once := (hperm.map Prod.fst).nodup_iff.mp h.once
  suited f v hmem := h.suited f v (hperm.mem_iff.mpr hmem)

variable {σ : Type} [DecidableEq φ] {put : φ → Value → σ → Except Fault σ}

/-- **Entries are read without a fault exactly when they are in good form**, if that is so for each value. -/
theorem exists_readEntries_iff
    (hsuits : ∀ {f v} s, v.TagFree → ((∃ s', put f v s = .ok s') ↔ suits f v))
    (hparts : ∀ e ∈ entries, e.1.TagFree ∧ e.2.TagFree) (s : σ) :
    (∃ s', valueSource.readEntries N.all N.name put [] s entries = .ok s') ↔
      N.WellFormed suits entries := by
  constructor
  · rintro ⟨s', hread⟩
    have hnamed := exists_of_readEntries N hread
    refine ⟨?known, ?once, ?suited⟩
    case known =>
      intro e he
      obtain ⟨f, hf, -⟩ := hnamed e he
      rw [(hparts e he).1.untag] at hf
      exact ⟨f, hf⟩
    case once =>
      have hnodup := nodup_keys_of_readEntries N hread
      rw [List.Nodup, List.pairwise_map] at hnodup
      rw [keys, List.Nodup, List.pairwise_map]
      refine hnodup.imp ?_
      intro e f hne heq
      rw [heq] at hne
      exact hne rfl
    case suited =>
      intro f v hmem
      obtain ⟨g, hg, s₀, s₁, hput⟩ := hnamed _ hmem
      obtain rfl : f = g := N.name_injective (Value.string.inj hg)
      exact (hsuits s₀ (hparts _ hmem).2).mp ⟨s₁, hput⟩
  · intro h
    refine exists_readEntries_of_fits N ?_ (h.known.nodup_texts h.distinct) s
    intro e he
    obtain ⟨f, hf⟩ := h.known e he
    refine ⟨f, ?_, List.not_mem_nil, fun s₀ => ?_⟩
    · rw [hf]
      rfl
    · exact (hsuits s₀ (hparts e he).2).mpr (h.suited f e.2 (hf ▸ he))

/-- **A value is read without a fault exactly when it is in the grammar.** -/
theorem Settings.exists_read_iff {S : Settings φ σ}
    (hsuits : ∀ {f v} s, v.TagFree → ((∃ s', S.put valueSource f v s = .ok s') ↔ suits f v))
    {v : Value} (ht : v.TagFree) :
    (∃ s, S.read valueSource v = .ok s) ↔ S.naming.Accepts suits v := by
  constructor
  · rintro ⟨s, hread⟩
    obtain ⟨entries, hentries, hread⟩ := bind_eq_ok_iff.mp hread
    rw [entries_eq_ok_iff, ht.untag] at hentries
    rcases hentries with rfl | ⟨rfl, -⟩
    · have hparts := (Value.everywhere_mapping.mp ht).2
      exact .inr ⟨entries, rfl, (exists_readEntries_iff hsuits hparts S.start).mp ⟨s, hread⟩⟩
    · exact .inl rfl
  · rintro (rfl | ⟨entries, rfl, h⟩)
    · exact ⟨S.start, rfl⟩
    · have hparts := (Value.everywhere_mapping.mp ht).2
      exact (exists_readEntries_iff hsuits hparts S.start).mpr h

end Entries

/-! ## The two levels -/

theorem exists_bind_pure_iff {ε α β : Type} {r : Except ε α} {g : α → β} :
    (∃ b, (r >>= fun a => pure (g a)) = .ok b) ↔ ∃ a, r = .ok a := by
  cases r with
  | ok a => exact ⟨fun _ => ⟨a, rfl⟩, fun _ => ⟨g a, rfl⟩⟩
  | error e => simp [Bind.bind, Except.bind]

theorem exists_putDownstream_iff {f : DownstreamField} {v : Value} (d : Downstream) (ht : v.TagFree) :
    (∃ d', valueSource.putDownstream f v d = .ok d') ↔ f.Suits v := by
  cases f with
  | program => exact exists_bind_pure_iff.trans (exists_text_iff ht _)
  | extraArgs => exact exists_bind_pure_iff.trans (exists_texts_iff ht _)
  | useNm | noDhcpFallback | debug => exact exists_bind_pure_iff.trans (exists_boolean_iff ht)

theorem exists_readDownstream_iff {v : Value} (ht : v.TagFree) :
    (∃ d, valueSource.readDownstream v = .ok d) ↔
      DownstreamField.naming.Accepts DownstreamField.Suits v :=
  Settings.downstream.exists_read_iff exists_putDownstream_iff ht

theorem exists_putField_iff {f : Field} {v : Value} (c : Config) (ht : v.TagFree) :
    (∃ c', valueSource.putField f v c = .ok c') ↔ f.Suits v := by
  cases f with
  | searchPath => exact exists_bind_pure_iff.trans (exists_texts_iff ht _)
  | downstream => exact exists_bind_pure_iff.trans (exists_readDownstream_iff ht)
  | mountPoint | blkid | mount => exact exists_bind_pure_iff.trans (exists_text_iff ht _)

/-- **A value without tags is accepted exactly when it is in the grammar.** -/
theorem exists_ofValue_iff {v : Value} (ht : v.TagFree) :
    (∃ c, ofValue v = .ok c) ↔ Field.naming.Accepts Field.Suits v :=
  Settings.run.exists_read_iff exists_putField_iff ht

/-! ## What is given for each setting -/

/-- What a setting is when this is found for it: its default if nothing is, and no texts if that is null. -/
def filled (base : Value) : Option Value → Value
  | none => base
  | some .null => textsValue []
  | some w => w

section Filled

variable {w : Value} (ht : w.TagFree) (base : Value)

include ht

theorem filled_text {expected : Expected} {s : String} (h : valueSource.text expected w = .ok s) :
    filled base (some w) = .string s := by
  rw [text_eq_ok_iff, ht.untag] at h
  rw [h]
  rfl

theorem filled_boolean {b : Bool} (h : valueSource.boolean w = .ok b) :
    filled base (some w) = .bool b := by
  rw [boolean_eq_ok_iff, ht.untag] at h
  rw [h]
  rfl

theorem filled_texts {expected : Expected} {ss : List String}
    (h : valueSource.texts expected w = .ok ss) : filled base (some w) = textsValue ss := by
  cases hnull : w.isNull with
  | true =>
      obtain rfl := Value.eq_null_of_isNull hnull
      cases h
      rfl
  | false =>
      rw [(written_texts expected).eq_write ht hnull h]
      rfl

end Filled

namespace Settings

variable {φ σ : Type} [DecidableEq φ] {S : Settings φ σ} {suits : φ → Value → Prop} {v : Value} {s : σ}

/-- Each setting became what is found for it. -/
theorem becomes_of_read (haccepts : S.naming.Accepts suits v) (h : S.read valueSource v = .ok s)
    (f : φ) : S.Becomes f (S.shown S.start f) (S.shown s f) (v.at? [S.naming.name f]) := by
  rcases haccepts with rfl | ⟨entries, rfl, hform⟩
  · cases h
    rfl
  · have hat : (Value.mapping entries).at? [S.naming.name f] =
        get? entries (.string (S.naming.name f)) := Option.bind_fun_some _
    rw [hat]
    exact becomes_of_readEntries hform.known hform.distinct h f

/-- A setting that holds no others is what is found for it. -/
theorem shown_eq_filled (ht : v.TagFree) (haccepts : S.naming.Accepts suits v)
    (h : S.read valueSource v = .ok s) {f : φ}
    (hputs : ∀ w x, w.TagFree → S.Puts valueSource f w x → x = filled (S.shown S.start f) (some w)) :
    S.shown s f = filled (S.shown S.start f) (v.at? [S.naming.name f]) := by
  have hbecomes := becomes_of_read haccepts h f
  cases hat : v.at? [S.naming.name f] with
  | none =>
      rw [hat] at hbecomes
      exact hbecomes
  | some w =>
      rw [hat] at hbecomes
      exact hputs w _ (ht.of_at? hat) hbecomes

end Settings

/-- Each setting for the tool is what is found for it. -/
theorem downstream_eq_filled {v : Value} (ht : v.TagFree) {d : Downstream}
    (h : valueSource.readDownstream v = .ok d) (f : DownstreamField) :
    downstreamFieldValue d f = filled (downstreamFieldValue {} f) (v.at? [f.name]) := by
  have haccepts := (exists_readDownstream_iff ht).mp ⟨d, h⟩
  refine Settings.shown_eq_filled (S := .downstream) ht haccepts h ?_
  rintro w x hw ⟨_, _, hput, rfl⟩
  cases f <;> obtain ⟨a, ha, hput⟩ := bind_eq_ok_iff.mp hput <;> cases hput
  case program => exact (filled_text hw _ ha).symm
  case useNm => exact (filled_boolean hw _ ha).symm
  case noDhcpFallback => exact (filled_boolean hw _ ha).symm
  case debug => exact (filled_boolean hw _ ha).symm
  case extraArgs => exact (filled_texts hw _ ha).symm

section Leaves

variable {v : Value} (ht : v.TagFree) {c : Config} (h : ofValue v = .ok c)

include ht h

/-- Each setting of a run that holds no others is what is found for it. -/
theorem fieldValue_eq_filled {f : Field} (hf : f ≠ .downstream) :
    fieldValue c f = filled (fieldValue {} f) (v.at? [f.name]) := by
  have haccepts := (exists_ofValue_iff ht).mp ⟨c, h⟩
  refine Settings.shown_eq_filled (S := .run) ht haccepts h ?_
  rintro w x hw ⟨_, _, hput, rfl⟩
  cases f <;> obtain ⟨a, ha, hput⟩ := bind_eq_ok_iff.mp hput <;> cases hput
  case downstream => exact absurd rfl hf
  case searchPath => exact (filled_texts hw _ ha).symm
  all_goals exact (filled_text hw _ ha).symm

/-- Each setting for the tool is what is found below the tool's own key. -/
theorem toolValue_eq_filled (f : DownstreamField) :
    downstreamFieldValue c.downstream f =
      filled (downstreamFieldValue {} f) (v.at? ["downstream", f.name]) := by
  have haccepts := (exists_ofValue_iff ht).mp ⟨c, h⟩
  have hbecomes := Settings.becomes_of_read (S := .run) haccepts h .downstream
  rw [Value.at?_cons]
  cases hat : v.at? ["downstream"] with
  | none =>
      rw [show v.at? [Settings.run.naming.name .downstream] = none from hat] at hbecomes
      rw [eq_of_downstreamValue hbecomes]
      rfl
  | some w =>
      rw [show v.at? [Settings.run.naming.name .downstream] = some w from hat] at hbecomes
      obtain ⟨d, hd, hshown⟩ := puts_downstream_iff.mp hbecomes
      rw [eq_of_downstreamValue hshown]
      exact downstream_eq_filled (ht.of_at? hat) hd f

/-- **Every setting is what is found at its path.** -/
theorem leaf_eq_filled (leaf : Leaf) :
    leaf.value c = filled (leaf.value default) (v.at? leaf.path) := by
  have htop := fun f => fieldValue_eq_filled ht h (f := f)
  have htool := toolValue_eq_filled ht h
  cases leaf with
  | mountPoint => exact htop .mountPoint (by simp)
  | searchPath => exact htop .searchPath (by simp)
  | blkid => exact htop .blkid (by simp)
  | mount => exact htop .mount (by simp)
  | program => exact htool .program
  | useNm => exact htool .useNm
  | noDhcpFallback => exact htool .noDhcpFallback
  | debug => exact htool .debug
  | extraArgs => exact htool .extraArgs

end Leaves

/-- **What a value without tags gives.**  It gives a configuration if it is in the grammar, and that is the
one in which every setting is what is found at its path. -/
theorem ofValue_eq_ok_iff {v : Value} (ht : v.TagFree) {c : Config} :
    ofValue v = .ok c ↔ Field.naming.Accepts Field.Suits v ∧
      ∀ leaf : Leaf, leaf.value c = filled (leaf.value default) (v.at? leaf.path) := by
  constructor
  · intro h
    exact ⟨(exists_ofValue_iff ht).mp ⟨c, h⟩, leaf_eq_filled ht h⟩
  · rintro ⟨haccepts, hleaves⟩
    obtain ⟨c', h⟩ := (exists_ofValue_iff ht).mpr haccepts
    have heq : c' = c := eq_of_leaves fun leaf => by rw [hleaves, leaf_eq_filled ht h]
    rw [h, heq]

/-! ## The order of entries -/

/-- The second value is the first with the entries in another order: those for the run, or those for the
tool. -/
inductive Rearranged : Value → Value → Prop
  | run {es fs : List (Value × Value)} : es.Perm fs → Rearranged (.mapping es) (.mapping fs)
  | tool {before after es fs : List (Value × Value)} : es.Perm fs →
      Rearranged (.mapping (before ++ (.string "downstream", .mapping es) :: after))
        (.mapping (before ++ (.string "downstream", .mapping fs) :: after))

/-- The value of an entry may be replaced by another that suits its setting. -/
theorem Naming.WellFormed.replace {φ : Type} {N : Naming φ} {suits : φ → Value → Prop}
    {before after : List (Value × Value)} {k v w : Value}
    (h : N.WellFormed suits (before ++ (k, v) :: after))
    (hsuits : ∀ f, k = .string (N.name f) → suits f v → suits f w) :
    N.WellFormed suits (before ++ (k, w) :: after) := by
  have hkeys : keys (before ++ (k, w) :: after) = keys (before ++ (k, v) :: after) := by
    simp [keys]
  have hmem : ∀ e ∈ before ++ (k, w) :: after, e = (k, w) ∨ e ∈ before ++ (k, v) :: after := by
    intro e he
    rcases List.mem_append.mp he with hbefore | hrest
    · exact .inr (List.mem_append_left _ hbefore)
    · rcases List.mem_cons.mp hrest with rfl | hafter
      · exact .inl rfl
      · exact .inr (List.mem_append_right _ (List.mem_cons_of_mem _ hafter))
  have hthere : (k, v) ∈ before ++ (k, v) :: after := List.mem_append_right _ List.mem_cons_self
  refine ⟨fun e he => ?_, hkeys ▸ h.once, fun f x hx => ?_⟩
  · rcases hmem e he with rfl | hold
    · exact h.known (k, v) hthere
    · exact h.known e hold
  · rcases hmem _ hx with heq | hold
    · obtain ⟨rfl, rfl⟩ := Prod.mk.inj heq
      exact hsuits f rfl (h.suited f v hthere)
    · exact h.suited f x hold

/-- What was accepted is accepted in any order. -/
theorem Rearranged.accepts {v w : Value} (h : Rearranged v w)
    (hv : Field.naming.Accepts Field.Suits v) : Field.naming.Accepts Field.Suits w := by
  cases h with
  | run hperm =>
      obtain hnull | ⟨_, ⟨⟩, hform⟩ := hv
      · cases hnull
      · exact .inr ⟨_, rfl, hform.perm hperm⟩
  | tool hperm =>
      obtain hnull | ⟨_, ⟨⟩, hform⟩ := hv
      · cases hnull
      · refine .inr ⟨_, rfl, hform.replace ?_⟩
        intro f hf hsuits
        obtain rfl : f = .downstream := Field.naming.name_injective (Value.string.inj hf).symm
        obtain hnull | ⟨_, ⟨⟩, hform⟩ := hsuits
        · cases hnull
        · exact .inr ⟨_, rfl, hform.perm hperm⟩

/-- Mappings of one length are the same if every entry of one has a partner under its key in the other. -/
theorem same_mapping_of_partners {as bs : List (Value × Value)} (hb : (Value.mapping bs).Distinct)
    (hlength : as.length = bs.length)
    (h : ∀ e ∈ as, ∃ w, (e.1, w) ∈ bs ∧ e.2.same w = true) :
    (Value.mapping as).same (.mapping bs) = true := by
  refine Value.same_mapping_iff.mpr ⟨hlength, fun e he => ?_⟩
  obtain ⟨w, hmem, hsame⟩ := h e he
  exact ⟨w, Yaml.Entries.get?_of_mem (Value.distinct_mapping.mp hb).1 hb.of_mem_keys hmem, hsame⟩

theorem same_mapping_of_perm {es fs : List (Value × Value)} (hperm : es.Perm fs)
    (hes : (Value.mapping es).Distinct) (hfs : (Value.mapping fs).Distinct) :
    (Value.mapping es).same (.mapping fs) = true := by
  refine same_mapping_of_partners hfs hperm.length_eq fun e he => ?_
  exact ⟨e.2, hperm.mem_iff.mp he, ((Value.distinct_mapping.mp hes).2 e he).2.same_refl⟩

/-- Values in another order are the same. -/
theorem Rearranged.same {v w : Value} (h : Rearranged v w) (hv : v.Distinct) (hw : w.Distinct) :
    v.same w = true := by
  cases h with
  | run hperm => exact same_mapping_of_perm hperm hv hw
  | @tool before after es fs hperm =>
      have hparts := (Value.distinct_mapping.mp hv).2
      refine same_mapping_of_partners hw (by simp) fun e he => ?_
      rcases List.mem_append.mp he with hbefore | hrest
      · exact ⟨e.2, List.mem_append_left _ hbefore, (hparts e he).2.same_refl⟩
      · rcases List.mem_cons.mp hrest with rfl | hafter
        · have hmem : (.string "downstream", .mapping fs) ∈
              before ++ (.string "downstream", .mapping fs) :: after :=
            List.mem_append_right _ List.mem_cons_self
          have hpart := ((Value.distinct_mapping.mp hw).2 _ hmem).2
          exact ⟨.mapping fs, hmem, same_mapping_of_perm hperm (hparts _ he).2 hpart⟩
        · exact ⟨e.2, List.mem_append_right _ (List.mem_cons_of_mem _ hafter),
            (hparts e he).2.same_refl⟩

/-- What is accepted repeats no key. -/
theorem Naming.Accepts.distinct {φ : Type} {N : Naming φ} {suits : φ → Value → Prop} {v : Value}
    (h : N.Accepts suits v) (hsuits : ∀ {f w}, suits f w → w.Distinct) : v.Distinct := by
  rcases h with rfl | ⟨entries, rfl, hform⟩
  · trivial
  · refine Value.distinct_mapping.mpr ⟨hform.distinct, fun e he => ?_⟩
    obtain ⟨f, hf⟩ := hform.known e he
    refine ⟨?_, hsuits (hform.suited f e.2 (hf ▸ he))⟩
    rw [hf]
    trivial

theorem DownstreamField.Suits.distinct {f : DownstreamField} {v : Value} (h : f.Suits v) :
    v.Distinct := by
  cases f with
  | extraArgs => exact IsTexts.distinct h
  | _ =>
      obtain ⟨a, rfl⟩ := h
      trivial

theorem Field.Suits.distinct {f : Field} {v : Value} (h : f.Suits v) : v.Distinct := by
  cases f with
  | searchPath => exact IsTexts.distinct h
  | downstream => exact Naming.Accepts.distinct h DownstreamField.Suits.distinct
  | _ =>
      obtain ⟨a, rfl⟩ := h
      trivial

/-- **The order of entries does not matter**: a value that gives a configuration gives the same in another
order. -/
theorem Rearranged.ofValue_eq_ok {v w : Value} (h : Rearranged v w) (hv : v.TagFree) {c : Config}
    (hread : ofValue v = .ok c) : ofValue w = .ok c := by
  have haccepts := (exists_ofValue_iff hv).mp ⟨c, hread⟩
  have hdv := haccepts.distinct Field.Suits.distinct
  have hdw := (h.accepts haccepts).distinct Field.Suits.distinct
  exact (ofValue_same hdv hdw (h.same hdv hdw) c).mp hread

end ConfigDrive.Config
