/-
# ConfigDrive.Proofs.Config.Agreeing — two ways of reading a text of settings.

A text gives settings in two ways.  It can be read at once, from the nodes that are written in it; or it
can be loaded as a file, where its value is laid over the default settings and the result is read.

Where both readers take something for a text, a truth value, a list or a mapping, they take it for the
same one, because the value that they look at is what the node denotes (`text_alike`, `items_alike`).  So
they agree on whole settings as long as nothing is laid over anything (`Settings.agree`): two runs over
entries that denote each other go through the same states.  A merge makes one difference.  Null replaces
nothing, so a setting that is given as null keeps its default when the file is loaded, while the other
reader takes null for an empty list, or for its own word as a text.  That is the only one, in every
document (`agreeButNull_ofDocument`) and so in every text (`Loader.load_agrees_with_ofText`).  Null means
the value here: under a tag it is another value, which replaces what is under it.
-/
import ConfigDrive.Config.OfText
import ConfigDrive.Proofs.Config.Determining
import ConfigDrive.Proofs.Config.Loading
import ConfigDrive.Proofs.Yaml.Denoting

namespace ConfigDrive.Config

open ConfigDrive.Yaml (Document Node Value Entries.get?)
open ConfigDrive.Host

/-! ## What both readers take for a text, a truth value, a list and a mapping -/

section Primitives

variable {d : Document} {n : Node} {v : Value}

/-- What a node denotes is denoted by the node for which it stands. -/
theorem denotes_target (h : d.Denotes n v) : d.Denotes (target d n) v := by
  cases h with
  | reference number value =>
      rw [target, number]
      exact value
  | scalar value => exact .scalar value
  | sequence parts => exact .sequence parts
  | mapping parts => exact .mapping parts

theorem text_alike (h : d.Denotes n v) {expected expected' : Expected} {s t : String}
    (hnode : (nodeSource d).text expected n = .ok s)
    (hvalue : valueSource.text expected' v = .ok t) : s = t := by
  have htarget := denotes_target h
  rw [text_eq_ok_iff] at hvalue
  simp only [nodeSource] at hnode
  cases hn : target d n with
  | scalar tag style text =>
      rw [hn] at hnode htarget
      have hscalar := htarget.scalarOf
      rw [hvalue] at hscalar
      cases hnode
      cases hscalar
      rfl
  | sequence | mapping | reference =>
      rw [hn] at hnode
      cases hnode

theorem boolean_alike (h : d.Denotes n v) {a b : Bool} (hnode : (nodeSource d).boolean n = .ok a)
    (hvalue : valueSource.boolean v = .ok b) : a = b := by
  have htarget := denotes_target h
  rw [boolean_eq_ok_iff] at hvalue
  simp only [nodeSource] at hnode
  cases hn : target d n with
  | scalar tag style text =>
      rw [hn] at hnode htarget
      have hscalar := htarget.scalarOf
      rw [hvalue] at hscalar
      cases hscalar with
      | bool word =>
          rw [nodeBoolean?, word] at hnode
          split at hnode
          · next hb =>
              split at hb
              · cases hb
                cases hnode
                rfl
              · cases hb
          · cases hnode
  | sequence | mapping | reference =>
      rw [hn] at hnode
      cases hnode

theorem items_alike (h : d.Denotes n v) {ns : List Node} {vs : List Value}
    (hnode : (nodeSource d).items n = .ok ns) (hvalue : valueSource.items v = .ok vs) :
    List.Forall₂ d.Denotes ns vs := by
  have htarget := denotes_target h
  rw [items_eq_ok_iff] at hvalue
  simp only [nodeSource] at hnode
  cases hn : target d n with
  | scalar tag style text =>
      -- a scalar is an empty list if it is empty, and then its value can only be null
      rw [hn] at hnode htarget
      have hscalar := htarget.scalarOf
      dsimp only at hnode
      split at hnode
      · cases hnode
        rcases hvalue with hseq | ⟨-, rfl⟩
        · rw [hseq] at hscalar
          cases hscalar
        · exact .nil
      · cases hnode
  | sequence tag items =>
      rw [hn] at hnode htarget
      obtain ⟨ws, hws, hparts⟩ := htarget.sequence_parts
      cases hnode
      rcases hvalue with hseq | ⟨hnull, -⟩
      · rw [hws] at hseq
        cases hseq
        exact hparts
      · rw [hws] at hnull
        cases hnull
  | mapping | reference =>
      rw [hn] at hnode
      cases hnode

theorem entries_alike (h : d.Denotes n v) {expected expected' : Expected} {ns : List (Node × Node)}
    {es : List (Value × Value)} (hnode : (nodeSource d).entries expected n = .ok ns)
    (hvalue : valueSource.entries expected' v = .ok es) : List.Forall₂ d.DenotesEntry ns es := by
  have htarget := denotes_target h
  rw [entries_eq_ok_iff] at hvalue
  simp only [nodeSource] at hnode
  cases hn : target d n with
  | scalar tag style text =>
      rw [hn] at hnode htarget
      have hscalar := htarget.scalarOf
      dsimp only at hnode
      split at hnode
      · cases hnode
        rcases hvalue with hmap | ⟨-, rfl⟩
        · rw [hmap] at hscalar
          cases hscalar
        · exact .nil
      · cases hnode
  | mapping tag entries =>
      rw [hn] at hnode htarget
      obtain ⟨ws, hws, hparts⟩ := htarget.mapping_parts
      cases hnode
      rcases hvalue with hmap | ⟨hnull, -⟩
      · rw [hws] at hmap
        cases hmap
        exact hparts
      · rw [hws] at hnull
        cases hnull
  | sequence | reference =>
      rw [hn] at hnode
      cases hnode

theorem textsFrom_alike {expected expected' : Expected} {ns : List Node} {vs : List Value}
    (h : List.Forall₂ d.Denotes ns vs) {i j : Nat} {ss ts : List String}
    (hnode : (nodeSource d).textsFrom expected i ns = .ok ss)
    (hvalue : valueSource.textsFrom expected' j vs = .ok ts) : ss = ts := by
  induction h generalizing i j ss ts with
  | nil =>
      cases hnode
      cases hvalue
      rfl
  | cons hhead _ ih =>
      obtain ⟨s, hs, hnode⟩ := bind_eq_ok_iff.mp hnode
      obtain ⟨ss', hss, hnode⟩ := bind_eq_ok_iff.mp hnode
      obtain ⟨t, ht, hvalue⟩ := bind_eq_ok_iff.mp hvalue
      obtain ⟨ts', hts, hvalue⟩ := bind_eq_ok_iff.mp hvalue
      cases hnode
      cases hvalue
      rw [text_alike hhead (within_eq_ok_iff.mp hs) (within_eq_ok_iff.mp ht), ih hss hts]

theorem texts_alike (h : d.Denotes n v) {expected expected' : Expected} {ss ts : List String}
    (hnode : (nodeSource d).texts expected n = .ok ss)
    (hvalue : valueSource.texts expected' v = .ok ts) : ss = ts := by
  obtain ⟨ns, hns, hnode⟩ := bind_eq_ok_iff.mp hnode
  obtain ⟨vs, hvs, hvalue⟩ := bind_eq_ok_iff.mp hvalue
  exact textsFrom_alike (items_alike h hns hvs) hnode hvalue

end Primitives

/-! ## Partners in related lists -/

/-- In lists that are related element by element, every element on the left has a partner. -/
theorem exists_right_of_forall₂ {α β : Type} {R : α → β → Prop} {as : List α} {bs : List β}
    (h : List.Forall₂ R as bs) {a : α} (ha : a ∈ as) : ∃ b ∈ bs, R a b := by
  induction h with
  | nil => cases ha
  | cons hhead _ ih =>
      rcases List.mem_cons.mp ha with rfl | htail
      · exact ⟨_, List.mem_cons_self, hhead⟩
      · obtain ⟨b, hb, hR⟩ := ih htail
        exact ⟨b, List.mem_cons_of_mem _ hb, hR⟩

theorem exists_left_of_forall₂ {α β : Type} {R : α → β → Prop} {as : List α} {bs : List β}
    (h : List.Forall₂ R as bs) {b : β} (hb : b ∈ bs) : ∃ a ∈ as, R a b :=
  exists_right_of_forall₂ (R := flip R) (List.Forall₂.flip h) hb

/-! ## What null makes of a setting -/

/-- A setting that was read at once shows `x` and one that was loaded shows `y`: null at the path keeps
the default, and otherwise both are the same. -/
def NullKeeps (v : Value) (path : List String) (base x y : Value) : Prop :=
  (v.at? path = some .null → y = base) ∧ (v.at? path ≠ some .null → y = x)

namespace Settings

variable {φ σ : Type} [DecidableEq φ] (S : Settings φ σ)

/-! ## Reading without a merge -/

section Alike

variable {d : Document} {n : Node} {v : Value} {c e : σ}

/-- Both readers, where both succeed, make the same of each setting. -/
def Alike (d : Document) : Prop :=
  ∀ {f : φ} {n : Node} {v x y : Value}, d.Denotes n v → S.Puts (nodeSource d) f n x →
    S.Puts valueSource f v y → x = y

/-- Two runs over entries that denote each other go through states that show the same. -/
theorem agree_readEntries (halike : S.Alike d) {ns : List (Node × Node)} {es : List (Value × Value)}
    (h : List.Forall₂ d.DenotesEntry ns es) {seen seen' : List φ} {c₀ e₀ : σ}
    (hstart : ∀ f, S.shown c₀ f = S.shown e₀ f)
    (hnode : (nodeSource d).readEntries S.naming.all S.naming.name (S.put (nodeSource d)) seen c₀ ns =
      .ok c)
    (hvalue : valueSource.readEntries S.naming.all S.naming.name (S.put valueSource) seen' e₀ es =
      .ok e) : ∀ f, S.shown c f = S.shown e f := by
  induction h generalizing seen seen' c₀ e₀ with
  | nil =>
      cases hnode
      cases hvalue
      exact hstart
  | cons hentry _ ih =>
      obtain ⟨hkey, hpart⟩ := hentry
      obtain ⟨f, c₁, hf, -, hputc, hrestc⟩ := exists_of_readEntries_cons S.naming hnode
      obtain ⟨g, e₁, hg, -, hpute, hreste⟩ := exists_of_readEntries_cons S.naming hvalue
      -- both keys are the same text, so both entries are for the same setting
      obtain rfl : f = g := S.naming.name_injective (text_alike hkey hf hg)
      refine ih (fun f' => ?_) hrestc hreste
      by_cases hf' : f' = f
      · subst hf'
        exact halike hpart ⟨c₀, c₁, hputc, rfl⟩ ⟨e₀, e₁, hpute, rfl⟩
      · rw [S.others hputc f' hf', S.others hpute f' hf']
        exact hstart f'

/-- **The two readers agree** on settings over which nothing is laid and which are laid over nothing. -/
theorem agree (halike : S.Alike d) (h : d.Denotes n v) (hnode : S.read (nodeSource d) n = .ok c)
    (hvalue : S.read valueSource v = .ok e) : ∀ f, S.shown c f = S.shown e f := by
  obtain ⟨ns, hns, hnode⟩ := bind_eq_ok_iff.mp hnode
  obtain ⟨es, hes, hvalue⟩ := bind_eq_ok_iff.mp hvalue
  exact S.agree_readEntries halike (entries_alike h hns hes) (fun f => rfl) hnode hvalue

end Alike

/-! ## Reading what was laid over the settings at the start -/

section Laid

variable {d : Document} {n : Node} {v : Value} {c e : σ}

/-- What becomes of a setting when `c` was read at once from a node that denotes `v`, and `e` from `v`
laid over the settings at the start. -/
inductive Outcome (d : Document) (v : Value) (c e : σ) (f : φ) : Prop
  | absent (gone : v.at? [S.naming.name f] = none) (same : S.shown e f = S.shown c f)
  | given {n : Node} {w : Value} (found : v.at? [S.naming.name f] = some w) (denotes : d.Denotes n w)
      (node : S.Puts (nodeSource d) f n (S.shown c f))
      (value : S.Puts valueSource f (merge (S.shown S.start f) w) (S.shown e f))

omit [DecidableEq φ] in
/-- A key that was read from a node, and that denotes the key of a setting, was read as that key. -/
theorem eq_of_key {entry : Node × Node} {entry' : Value × Value} (h : d.DenotesEntry entry entry')
    {f g : φ} (hnode : (nodeSource d).text .key entry.1 = .ok (S.naming.name f))
    (hvalue : entry'.1 = .string (S.naming.name g)) : f = g := by
  cases h with
  | mk ofKey ofValue =>
      have htext : valueSource.text .key (.string (S.naming.name g)) = .ok (S.naming.name g) := rfl
      rw [← hvalue] at htext
      exact S.naming.name_injective (text_alike ofKey hnode htext)

/-- **Entries laid over the settings at the start** and the same entries read at once. -/
theorem outcome_of_readEntries {ns : List (Node × Node)} {es : List (Value × Value)}
    (hd : (Value.mapping es).Distinct) (h : List.Forall₂ d.DenotesEntry ns es)
    (hnode : (nodeSource d).readEntries S.naming.all S.naming.name (S.put (nodeSource d)) [] S.start
      ns = .ok c)
    (hvalue : valueSource.readEntries S.naming.all S.naming.name (S.put valueSource) [] S.start
      (mergeEntries (S.naming.record (S.shown S.start)) es) = .ok e) (f : φ) :
    S.Outcome d (.mapping es) c e f := by
  have hdist := (Value.distinct_mapping.mp hd).1
  have hknows : S.naming.Knows es :=
    (of_readEntries_mergeEntries S.naming hd (S.not_isTagged_of_readEntries hd hvalue) hvalue).1
  rw [S.naming.mergeEntries_record hknows hdist] at hvalue
  have hputs := S.puts_of_readEntries_record hvalue f
  have hat : (Value.mapping es).at? [S.naming.name f] =
      Entries.get? es (.string (S.naming.name f)) := Option.bind_fun_some _
  rcases S.shown_readEntries hnode f with ⟨hnot, hshown⟩ | ⟨entry, hentry, hkey, hread⟩
  · have hnone : Entries.get? es (.string (S.naming.name f)) = none := by
      rw [Yaml.Entries.get?_eq_none_iff]
      intro entry' hentry'
      rw [← Bool.not_eq_true, Value.string_same_iff]
      intro hname
      obtain ⟨entry, hentry, hden⟩ := exists_left_of_forall₂ h hentry'
      obtain ⟨g, hg, -⟩ := exists_key_of_readEntries S.naming hnode entry hentry
      obtain rfl := S.eq_of_key hden hg hname
      exact hnot entry hentry hg
    refine .absent (hat.trans hnone) ?_
    rw [hnone] at hputs
    obtain ⟨s, s', hput, hs'⟩ := hputs
    rw [← hs', S.written hput, hshown]
  · obtain ⟨⟨key, w⟩, hentry', hden⟩ := exists_right_of_forall₂ h hentry
    obtain ⟨g, hg⟩ := hknows _ hentry'
    obtain rfl := S.eq_of_key hden hkey hg
    cases hg
    have hsome := Yaml.Entries.get?_string_of_mem hdist hentry'
    rw [hsome] at hputs
    obtain ⟨-, hpart⟩ := hden
    exact .given (hat.trans hsome) hpart hread hputs

/-- **A value laid over the settings at the start** and the node that denotes it read at once. -/
theorem outcome (halike : S.Alike d) (hd : v.Distinct) (h : d.Denotes n v)
    (hnode : S.read (nodeSource d) n = .ok c)
    (hvalue : S.read valueSource (merge (.mapping (S.naming.record (S.shown S.start))) v) = .ok e)
    (f : φ) : S.Outcome d v c e f := by
  cases hmapping : v.isMapping with
  | true =>
      cases v with
      | mapping es =>
          obtain ⟨ns, hns, hnode⟩ := bind_eq_ok_iff.mp hnode
          rw [merge] at hvalue
          obtain ⟨_, hes, hvalue⟩ := bind_eq_ok_iff.mp hvalue
          cases hes
          have hes : valueSource.entries S.expected (.mapping es) = .ok es := rfl
          have hparts := entries_alike h hns hes
          exact S.outcome_of_readEntries hd hparts hnode hvalue f
      | _ => cases hmapping
  | false =>
      -- nothing is merged key by key: the value is null, or it is read as it stands
      have hat : v.at? [S.naming.name f] = none := by
        cases v with
        | mapping es => cases hmapping
        | _ => rfl
      refine .absent hat ?_
      rcases merge_of_not_isMapping hmapping (.mapping (S.naming.record (S.shown S.start))) with
        ⟨hnull, hmerge⟩ | ⟨-, hmerge⟩
      · subst hnull
        rw [hmerge] at hvalue
        -- both are read from no entries at all
        have hstart : S.read valueSource .null = .ok S.start := rfl
        obtain ⟨s, s', hput, hs'⟩ := S.puts_of_readEntries_record hvalue f
        rw [S.agree halike h hnode hstart f, ← hs', S.written hput]
      · rw [hmerge] at hvalue
        exact (S.agree halike h hnode hvalue f).symm

omit [DecidableEq φ] in
/-- **A setting that holds no others** is loaded as it is read at once, unless it is null. -/
theorem nullKeeps_of_outcome {f : φ} (h : S.Outcome d v c e f) (halike : S.Alike d)
    (hbase : (S.shown S.start f).isMapping = false) :
    NullKeeps v [S.naming.name f] (S.shown S.start f) (S.shown c f) (S.shown e f) := by
  cases h with
  | absent gone same =>
      refine ⟨fun hnull => ?_, fun _ => same⟩
      rw [gone] at hnull
      cases hnull
  | given found denotes node value =>
      rename_i w
      cases hnull : w.isNull with
      | true =>
          obtain rfl := Value.eq_null_of_isNull hnull
          rw [merge_null] at value
          obtain ⟨s, s', hput, hs'⟩ := value
          refine ⟨fun _ => by rw [← hs', S.written hput], fun hne => absurd found hne⟩
      | false =>
          rw [merge_of_not_mapping hnull (by rw [hbase, Bool.false_and])] at value
          refine ⟨fun hat => ?_, fun _ => (halike denotes node value).symm⟩
          rw [found, Option.some.injEq] at hat
          rw [hat] at hnull
          cases hnull

end Laid

end Settings

/-! ## The two collections -/

section Both

variable {d : Document} {n : Node} {v : Value}

theorem alike_downstream (d : Document) : Settings.downstream.Alike d := by
  rintro f n v x y h ⟨_, _, hnode, rfl⟩ ⟨_, _, hvalue, rfl⟩
  cases f <;> obtain ⟨a, ha, hnode⟩ := bind_eq_ok_iff.mp hnode <;>
    obtain ⟨b, hb, hvalue⟩ := bind_eq_ok_iff.mp hvalue <;> cases hnode <;> cases hvalue
  case program => exact congrArg Value.string (text_alike h ha hb)
  case useNm => exact congrArg Value.bool (boolean_alike h ha hb)
  case noDhcpFallback => exact congrArg Value.bool (boolean_alike h ha hb)
  case debug => exact congrArg Value.bool (boolean_alike h ha hb)
  case extraArgs => exact congrArg textsValue (texts_alike h ha hb)

theorem alike_run (d : Document) : Settings.run.Alike d := by
  rintro f n v x y h ⟨_, _, hnode, rfl⟩ ⟨_, _, hvalue, rfl⟩
  cases f <;> obtain ⟨a, ha, hnode⟩ := bind_eq_ok_iff.mp hnode <;>
    obtain ⟨b, hb, hvalue⟩ := bind_eq_ok_iff.mp hvalue <;> cases hnode <;> cases hvalue
  case mountPoint => exact congrArg Value.string (text_alike h ha hb)
  case searchPath => exact congrArg textsValue (texts_alike h ha hb)
  case blkid => exact congrArg Value.string (text_alike h ha hb)
  case mount => exact congrArg Value.string (text_alike h ha hb)
  case downstream =>
    rw [Settings.readDownstream_eq] at ha hb
    refine congrArg downstreamValue (eq_of_downstreamFieldValue ?_)
    exact Settings.downstream.agree (alike_downstream d) h ha hb

variable {c e : Config}

/-- What was read for the settings for the tool. -/
theorem readDownstream_of_puts {α : Type} {src : Source α} {a : α}
    (h : Settings.run.Puts src .downstream a (fieldValue c .downstream)) :
    Settings.downstream.read src a = .ok c.downstream := by
  obtain ⟨s, s', hput, hs'⟩ := h
  obtain ⟨d', hd', hput⟩ := bind_eq_ok_iff.mp hput
  cases hput
  rw [← Settings.readDownstream_eq, hd']
  exact congrArg Except.ok (eq_of_downstreamValue hs')

/-- A setting for the tool is loaded as it is read at once, unless it is null. -/
theorem nullKeeps_downstream (hd : v.Distinct)
    (h : Settings.run.Outcome d v c e .downstream) (f : DownstreamField) :
    NullKeeps v ["downstream", f.name] (downstreamFieldValue {} f)
      (downstreamFieldValue c.downstream f) (downstreamFieldValue e.downstream f) := by
  have hat := v.at?_cons "downstream" [f.name]
  cases h with
  | absent gone same =>
      rw [show v.at? ["downstream"] = none from gone] at hat
      rw [NullKeeps, hat, eq_of_downstreamValue same]
      constructor
      · intro hnull
        cases hnull
      · intro _
        rfl
  | given found denotes node value =>
      rename_i w
      rw [show v.at? ["downstream"] = some w from found] at hat
      rw [NullKeeps, hat]
      have houtcome := Settings.downstream.outcome (alike_downstream d) (hd.of_at? found) denotes
        (readDownstream_of_puts node) (readDownstream_of_puts value) f
      have hbase : (downstreamFieldValue {} f).isMapping = false := by cases f <;> rfl
      exact Settings.downstream.nullKeeps_of_outcome houtcome (alike_downstream d) hbase

/-- **Every setting that holds no others is loaded as it is read at once**, unless it is null. -/
theorem nullKeeps_leaf (hd : v.Distinct) (h : d.Denotes n v)
    (hnode : (nodeSource d).readConfig n = .ok c)
    (hvalue : ofValue (merge (toValue default) v) = .ok e) (leaf : Leaf) :
    NullKeeps v leaf.path (leaf.value default) (leaf.value c) (leaf.value e) := by
  rw [Settings.readConfig_eq] at hnode
  rw [ofValue, Settings.readConfig_eq] at hvalue
  have houtcome := Settings.run.outcome (alike_run d) hd h hnode hvalue
  have hleaf := fun f => Settings.run.nullKeeps_of_outcome (houtcome f) (alike_run d)
  have htool := nullKeeps_downstream hd (houtcome .downstream)
  cases leaf with
  | mountPoint => exact hleaf .mountPoint rfl
  | searchPath => exact hleaf .searchPath rfl
  | blkid => exact hleaf .blkid rfl
  | mount => exact hleaf .mount rfl
  | program => exact htool .program
  | useNm => exact htool .useNm
  | noDhcpFallback => exact htool .noDhcpFallback
  | debug => exact htool .debug
  | extraArgs => exact htool .extraArgs

end Both

/-! ## Documents and texts -/

/-- Of settings that were read at once, `c`, and settings that were loaded, `e`: one to which the value
gives null has its default in `e`, and every other one is the same.  So both are equal if and only if null
makes no difference. -/
def AgreeButNull (v : Value) (c e : Config) : Prop :=
  (∀ leaf : Leaf, NullKeeps v leaf.path (leaf.value default) (leaf.value c) (leaf.value e)) ∧
  (c = e ↔ ∀ leaf : Leaf, v.at? leaf.path = some .null → leaf.value c = leaf.value default)

theorem agreeButNull_of_nullKeeps {v : Value} {c e : Config}
    (h : ∀ leaf : Leaf, NullKeeps v leaf.path (leaf.value default) (leaf.value c) (leaf.value e)) :
    AgreeButNull v c e := by
  refine ⟨h, ?_, ?_⟩
  · rintro rfl leaf hnull
    exact (h leaf).1 hnull
  · intro hdefault
    refine eq_of_leaves fun leaf => ?_
    by_cases hnull : v.at? leaf.path = some .null
    · rw [hdefault leaf hnull, (h leaf).1 hnull]
    · exact ((h leaf).2 hnull).symm

/-- One layer is read over the defaults. -/
theorem ofValue_of_ofLayers {v : Value} {e : Config} (h : Loader.ofLayers [v] = .ok e) :
    ofValue (merge (toValue default) v) = .ok e := by
  rw [Loader.ofLayers] at h
  split at h
  · next hread =>
      cases h
      exact hread
  · cases h

/-- **The two readings of a document agree but for null.**  This holds of every document, however its
nodes are tagged and whatever text it was composed from. -/
theorem agreeButNull_ofDocument {d : Document} {v : Value} {c e : Config} (hc : ofDocument d = .ok c)
    (hv : d.value = .ok v) (he : Loader.ofLayers [v] = .ok e) : AgreeButNull v c e := by
  have hd := Yaml.Document.distinct_value hv
  have hvalue := ofValue_of_ofLayers he
  refine agreeButNull_of_nullKeeps fun leaf => ?_
  rw [ofDocument] at hc
  cases hroot : d.root with
  | none =>
      -- without a root the value is null and there are no nodes to read
      rw [hroot] at hc
      rw [Document.value, hroot] at hv
      cases hc
      cases hv
      rw [merge_null, ofValue_toValue] at hvalue
      cases hvalue
      exact ⟨fun _ => rfl, fun _ => rfl⟩
  | some root =>
      rw [hroot] at hc
      exact nullKeeps_leaf hd (Yaml.Document.denotes_of_value hroot hv) hc hvalue leaf

/-- The settings that a text gives are those of its document. -/
theorem ofDocument_of_ofText {text : String} {d : Document} {c : Config}
    (hd : Document.ofText text.toList = .ok d) (h : ofText text = .ok c) : ofDocument d = .ok c := by
  rw [ofText, hd] at h
  dsimp only at h
  split at h
  · next hc =>
      cases h
      exact hc
  · cases h
  · cases h

namespace Loader

/-- A main file without drop-ins is loaded as its value over the defaults. -/
theorem exists_value_of_load {m : Machine} {l : Loader} {text : String} {e : Config}
    (hfile : m.tree.readText l.path = .ok text)
    (halone : (l.dropins m.tree >>= filesAt m.tree) = .ok [])
    (hload : (m.perform l.load.run).1 = .ok (.ok e)) :
    ∃ v, Value.ofText text = .ok v ∧ ofLayers [v] = .ok e := by
  rw [(m.perform_eq_course _).1, course_load] at hload
  obtain ⟨files, hfiles, hlayers⟩ := bind_eq_ok_iff.mp (Except.ok.inj hload)
  obtain ⟨main, hmain, hfiles⟩ := bind_eq_ok_iff.mp hfiles
  obtain ⟨rest, hrest, hfiles⟩ := bind_eq_ok_iff.mp hfiles
  rw [halone] at hrest
  cases hrest
  cases hfiles
  obtain ⟨v?, hvalue, hmain⟩ := bind_eq_ok_iff.mp hmain
  rw [fileValue, hfile] at hvalue
  dsimp only at hvalue
  cases hv : Value.ofText text with
  | error err =>
      rw [hv] at hvalue
      cases hvalue
  | ok v =>
      rw [hv] at hvalue
      cases hvalue
      cases hmain
      exact ⟨v, rfl, hlayers⟩

/-- **A text is loaded as it is read at once, unless it gives null.**  Whatever document is read in the
two ways, if both give settings, then these agree on every setting, except that one to which the value
gives null keeps its default when it is laid over the defaults; so they agree altogether if and only if
that makes no difference, and in particular if nothing is null.  And both ways of reading a text, at once
and as the only file that is loaded, read one document in these two ways. -/
theorem load_agrees_with_ofText :
    (∀ (d : Document) (v : Value) (c e : Config), ofDocument d = .ok c → d.value = .ok v →
      ofLayers [v] = .ok e → AgreeButNull v c e) ∧
    ∀ (m : Machine) (l : Loader) (text : String) (c e : Config),
      m.tree.readText l.path = .ok text → (l.dropins m.tree >>= filesAt m.tree) = .ok [] →
      ofText text = .ok c → (m.perform l.load.run).1 = .ok (.ok e) →
      ∃ d v, Document.ofText text.toList = .ok d ∧ ofDocument d = .ok c ∧ d.value = .ok v ∧
        ofLayers [v] = .ok e ∧ AgreeButNull v c e := by
  refine ⟨fun d v c e => agreeButNull_ofDocument, ?_⟩
  intro m l text c e hfile halone htext hload
  obtain ⟨v, hv, he⟩ := exists_value_of_load hfile halone hload
  obtain ⟨d, hd, hv⟩ := Yaml.exists_document_of_ofText hv
  have hc := ofDocument_of_ofText hd htext
  exact ⟨d, v, hd, hc, hv, he, agreeButNull_ofDocument hc hv he⟩

/-! ## A list that is left empty -/

/-- A tree with one file of settings and no drop-ins. -/
def soleFile (text : String) : FileTree :=
  { root := [("config.yaml", textFile text)], workingDirectory := [] }

/-- A text with a setting and with a list that is left empty. -/
def emptyListText : String :=
  "mount: /sbin/mount\nsearch_path:\n"

set_option maxRecDepth 10000 in
/-- The list that is left empty is empty when it is read at once, and keeps its default when it is loaded;
the other settings are the same both ways. -/
theorem empty_list_keeps_default :
    ofText emptyListText = .ok { mount := "/sbin/mount", searchPath := [] } ∧
      (({ tree := soleFile emptyListText } : Machine).perform sampleLoader.load.run).1 =
        .ok (.ok { mount := "/sbin/mount" }) ∧
      ∃ v, Value.ofText emptyListText = .ok v ∧ v.at? ["search_path"] = some .null ∧
        Leaf.value { mount := "/sbin/mount" } .searchPath = Leaf.value default .searchPath ∧
        ∀ leaf : Leaf, v.at? leaf.path ≠ some .null →
          leaf.value { mount := "/sbin/mount" } =
            leaf.value { mount := "/sbin/mount", searchPath := [] } := by
  have hfile : (soleFile emptyListText).readText sampleLoader.path = .ok emptyListText := by
    decide +kernel
  have hdropins : sampleLoader.dropins (soleFile emptyListText) = .ok [] := by
    decide +kernel
  have halone : (sampleLoader.dropins (soleFile emptyListText) >>=
      filesAt (soleFile emptyListText)) = .ok [] := by
    rw [hdropins]
    rfl
  have htext : ofText emptyListText = .ok { mount := "/sbin/mount", searchPath := [] } := by
    decide +kernel
  have hload : (({ tree := soleFile emptyListText } : Machine).perform sampleLoader.load.run).1 =
      .ok (.ok { mount := "/sbin/mount" }) := by
    decide +kernel
  obtain ⟨d, v, hd, hc, hv, he, -⟩ :=
    load_agrees_with_ofText.2 { tree := soleFile emptyListText } sampleLoader _ _ _ hfile halone htext
      hload
  obtain ⟨hleaf, -⟩ := load_agrees_with_ofText.1 d v _ _ hc hv he
  have htextv : Value.ofText emptyListText = .ok v := by
    rw [Value.ofText, hd]
    exact hv
  have hnull : v.at? ["search_path"] = some .null := by
    have hread : ((Value.ofText emptyListText).toOption.bind (Value.at? ["search_path"])).any
        Value.isNull = true := by
      decide +kernel
    rw [htextv, Except.toOption, Option.bind_some] at hread
    cases hat : v.at? ["search_path"] with
    | none =>
        rw [hat] at hread
        cases hread
    | some w =>
        rw [hat] at hread
        rw [Value.eq_null_of_isNull hread]
  exact ⟨htext, hload, v, htextv, hnull, (hleaf .searchPath).1 hnull, fun leaf => (hleaf leaf).2⟩

set_option maxRecDepth 10000 in
/-- **Null is read in two ways.**  At once it is an empty list, or as a text the word for it; in a file
that is loaded it gives nothing. -/
theorem null_is_read_two_ways :
    ofText "search_path:\n" = .ok { searchPath := [] } ∧
      (({ tree := soleFile "search_path:\n" } : Machine).perform sampleLoader.load.run).1 =
        .ok (.ok default) ∧
      ({ searchPath := [] } : Config) ≠ default ∧
      ofText "blkid: ~\n" = .ok { blkid := "~" } ∧
      (({ tree := soleFile "blkid: ~\n" } : Machine).perform sampleLoader.load.run).1 =
        .ok (.ok default) ∧
      ({ blkid := "~" } : Config) ≠ default := by
  refine ⟨?_, ?_, ?_, ?_, ?_, ?_⟩ <;> decide +kernel

set_option maxRecDepth 10000 in
/-- Under a tag null is a value of its own, also under the lone mark `!`: it replaces the default. -/
example : (({ tree := soleFile "search_path: ! ~\n" } : Machine).perform sampleLoader.load.run).1 =
    .ok (.ok { searchPath := [] }) := by
  decide +kernel

end Loader

end ConfigDrive.Config
