/-
# ConfigDrive.Proofs.Config.Remains — what is left of a layer under the later ones.

Settings are checked once, on what all layers give together, so a fault in one layer shows only as far as
that layer does.  `remains v w` is what a value `v` still contributes when `w` has been laid over it:
where `w` replaces something, null is left.

`Shows x r` says that a result `x` shows `r`: what is no mapping and not null stands in `x` as it is, and
every key of a mapping is a key of the result.  Every layer is shown when it is laid (`shows_merge`), and
what remains of it is shown from then on (`Shows.merge`).  So whatever remains of a layer in the end was
checked, and it is accepted over the defaults (`accepts_remaining`).  Tags on keys are left out: a tagged
key is a key of its own to a merge and an ordinary one to the reader.
-/
import ConfigDrive.Config.Load
import ConfigDrive.Proofs.Config.Reading

namespace ConfigDrive.Yaml

namespace Value

/-- Induction on the values in mappings. -/
@[elab_as_elim]
theorem mapping_induction {P : Value → Prop} (other : ∀ v, v.isMapping = false → P v)
    (mapping : ∀ entries, (∀ e ∈ entries, P e.2) → P (.mapping entries)) (v : Value) : P v := by
  induction hn : sizeOf v using Nat.strong_induction_on generalizing v with
  | _ n ih =>
      cases v with
      | mapping entries =>
          refine mapping entries fun e he => ?_
          have hlt := (sizeOf_key_lt he).2
          exact ih (sizeOf e.2) (by omega) e.2 rfl
      | _ => exact other _ rfl

/-- The value is no mapping that has a key with a tag. -/
def KeysUntagged : Value → Prop
  | .mapping entries => ∀ e ∈ entries, e.1.isTagged = false
  | _ => True

/-- No key in the value carries a tag. -/
def PlainKeys (v : Value) : Prop :=
  Everywhere KeysUntagged v

end Value

namespace Entries

/-- In entries without repeated keys a look-up finds what stands under a text. -/
theorem get?_string_of_mem {entries : List (Value × Value)} (hd : Distinct entries) {s : String}
    {v : Value} (h : (.string s, v) ∈ entries) : get? entries (.string s) = some v := by
  induction entries with
  | nil => simp at h
  | cons e rest ih =>
      rw [get?_cons]
      rcases List.mem_cons.mp h with rfl | htail
      · rw [if_pos (Value.string_same_self s)]
      · have hne : ¬ (Value.string s).same e.1 = true := by
          intro hsame
          have hrest := hd.1 _ htail
          rw [Value.string_same_iff.mp hsame, Value.string_same_self] at hrest
          cases hrest
        rw [if_neg hne]
        exact ih hd.2 htail

/-- A key that is there is found. -/
theorem exists_get?_of_key {entries : List (Value × Value)} {key : Value}
    (h : ∃ k ∈ keys entries, key.same k = true) : ∃ v, get? entries key = some v := by
  obtain ⟨k, hk, hsame⟩ := h
  obtain ⟨e, he, rfl⟩ := List.mem_map.mp hk
  cases hget : get? entries key with
  | some v => exact ⟨v, rfl⟩
  | none =>
      rw [get?_eq_none_iff.mp hget e he] at hsame
      cases hsame

end Entries

end ConfigDrive.Yaml

namespace ConfigDrive.Config

open ConfigDrive.Yaml (Value Entries.get? Entries.put Entries.keys)

/-! ## What remains of a value -/

mutual

/-- What a value still contributes when another has been laid over it. -/
def remains : Value → Value → Value
  | v, .null => v
  | .mapping entries, .mapping later => .mapping (remainsEntries later entries)
  | _, _ => .null

/-- What entries still contribute when others have been laid over them. -/
def remainsEntries (later : List (Value × Value)) : List (Value × Value) → List (Value × Value)
  | [] => []
  | (k, v) :: rest =>
    (k,
      match Entries.get? later k with
      | some w => remains v w
      | none => v) :: remainsEntries later rest

end

/-- What a layer still contributes under later ones. -/
def remaining (v : Value) (later : List Value) : Value :=
  later.foldl remains v

/-- What remains of a value under an entry of a later layer, if there is one. -/
def remainsUnder (v : Value) : Option Value → Value
  | none => v
  | some w => remains v w

theorem remains_null (v : Value) : remains v .null = v := by
  cases v <;> rfl

theorem remainsEntries_eq_map (later entries : List (Value × Value)) :
    remainsEntries later entries =
      entries.map fun e => (e.1, remainsUnder e.2 (Entries.get? later e.1)) := by
  induction entries with
  | nil => rfl
  | cons e rest ih =>
      obtain ⟨k, v⟩ := e
      rw [remainsEntries, List.map_cons, ← ih]
      cases Entries.get? later k <;> rfl

theorem keys_remainsEntries (later entries : List (Value × Value)) :
    Entries.keys (remainsEntries later entries) = Entries.keys entries := by
  rw [remainsEntries_eq_map, Entries.keys, Entries.keys, List.map_map]
  rfl

/-- **What holds everywhere in a value holds everywhere in what remains of it**, if it is true of null and,
of a mapping, says something about the keys only. -/
theorem everywhere_remains {P : Value → Prop} (hnull : P .null)
    (hkeys : ∀ {entries entries'}, Entries.keys entries' = Entries.keys entries →
      P (.mapping entries) → P (.mapping entries'))
    {v : Value} (h : v.Everywhere P) (w : Value) : (remains v w).Everywhere P := by
  induction v using Value.mapping_induction generalizing w with
  | other v hv =>
      cases w with
      | null =>
          rw [remains_null]
          exact h
      | _ => cases v <;> first | exact hnull | cases hv
  | mapping entries ih =>
      cases w with
      | null => exact h
      | mapping later =>
          rw [remains]
          obtain ⟨htop, hparts⟩ := Value.everywhere_mapping.mp h
          refine Value.everywhere_mapping.mpr ⟨hkeys (keys_remainsEntries later entries) htop, ?_⟩
          intro e he
          rw [remainsEntries_eq_map] at he
          obtain ⟨e', he', rfl⟩ := List.mem_map.mp he
          refine ⟨(hparts e' he').1, ?_⟩
          cases hget : Entries.get? later e'.1 with
          | none => exact (hparts e' he').2
          | some w => exact ih e' he' (hparts e' he').2 w
      | _ => exact hnull

theorem distinct_of_keys_eq {entries entries' : List (Value × Value)}
    (h : Entries.keys entries' = Entries.keys entries) (hd : Yaml.Entries.Distinct entries) :
    Yaml.Entries.Distinct entries' := by
  rw [Yaml.Entries.distinct_iff_pairwise] at hd ⊢
  rw [← List.pairwise_map (f := Prod.fst) (R := fun k l : Value => k.same l = false)] at hd ⊢
  rw [show entries'.map Prod.fst = entries.map Prod.fst from h]
  exact hd

theorem distinct_remains {v : Value} (h : v.Distinct) (w : Value) : (remains v w).Distinct :=
  everywhere_remains trivial distinct_of_keys_eq h w

theorem plainKeys_remains {v : Value} (h : v.PlainKeys) (w : Value) : (remains v w).PlainKeys := by
  refine everywhere_remains trivial ?_ h w
  intro entries entries' hkeys hplain e he
  have hmem : e.1 ∈ Entries.keys entries := by
    rw [← hkeys]
    exact List.mem_map_of_mem he
  obtain ⟨e', he', heq⟩ := List.mem_map.mp hmem
  rw [← heq]
  exact hplain e' he'

/-! ## What a result shows -/

/-- The result shows what remains of a layer. -/
inductive Shows : Value → Value → Prop
  | null (x : Value) : Shows x .null
  | whole {x : Value} (h : x.isMapping = false) : Shows x x
  | mapping {xs entries : List (Value × Value)}
      (keys : ∀ e ∈ entries, ∃ k ∈ Entries.keys xs, e.1.same k = true)
      (values : ∀ e ∈ entries, ∀ s, e.1 = .string s →
        ∀ y, Entries.get? xs (.string s) = some y → Shows y e.2) :
      Shows (.mapping xs) (.mapping entries)

theorem null_merge (v : Value) : merge .null v = v := by
  cases v <;> rfl

/-- **A layer is shown when it is laid.** -/
theorem shows_merge {v : Value} (hd : v.Distinct) (base : Value) : Shows (merge base v) v := by
  induction v using Value.mapping_induction generalizing base with
  | other v hv =>
      rcases merge_of_not_isMapping hv base with ⟨rfl, -⟩ | ⟨-, hmerge⟩
      · exact .null _
      · rw [hmerge]
        exact .whole hv
  | mapping entries ih =>
      obtain ⟨hdistinct, hparts⟩ := Value.distinct_mapping.mp hd
      cases hbase : base.isMapping with
      | true =>
          obtain ⟨under, rfl⟩ : ∃ under, base = .mapping under := by
            cases base with
            | mapping under => exact ⟨under, rfl⟩
            | _ => cases hbase
          rw [merge]
          refine .mapping (exists_key_mergeEntries fun e he => (hparts e he).1) ?_
          rintro ⟨_, w⟩ he s rfl y hy
          -- the entry lies over what is stored under its key, or over nothing
          rw [get?_mergeEntries hdistinct, Yaml.Entries.get?_string_of_mem hdistinct he] at hy
          cases hunder : Entries.get? under (.string s) with
          | some u =>
              rw [hunder] at hy
              cases hy
              exact ih _ he (hparts _ he).2 u
          | none =>
              rw [hunder] at hy
              cases hy
              have hself := ih _ he (hparts _ he).2 .null
              rw [null_merge] at hself
              exact hself
      | false =>
          rw [merge_of_not_mapping rfl (by rw [hbase, Bool.false_and])]
          refine .mapping ?_ ?_
          · intro e he
            exact ⟨e.1, List.mem_map_of_mem he, (hparts e he).1.same_refl⟩
          · rintro ⟨_, w⟩ he s rfl y hy
            rw [Yaml.Entries.get?_string_of_mem hdistinct he] at hy
            cases hy
            have hself := ih _ he (hparts _ he).2 .null
            rw [null_merge] at hself
            exact hself

/-- **What remains of a layer is shown after the next one.** -/
theorem Shows.merge {x r : Value} (h : Shows x r) {w : Value} (hd : w.Distinct) :
    Shows (Config.merge x w) (remains r w) := by
  induction r using Value.mapping_induction generalizing x w with
  | other r hr =>
      cases w with
      | null =>
          rw [merge_null, remains_null]
          exact h
      | _ => cases r <;> first | exact .null _ | cases hr
  | mapping entries ih =>
      cases w with
      | null =>
          rw [merge_null, remains_null]
          exact h
      | mapping later =>
          obtain ⟨hdistinct, hparts⟩ := Value.distinct_mapping.mp hd
          cases h with
          | whole h => cases h
          | @mapping xs _ hkeys hvalues =>
              rw [Config.merge, remains, remainsEntries_eq_map]
              refine .mapping ?_ ?_
              · intro e he
                obtain ⟨e', he', rfl⟩ := List.mem_map.mp he
                obtain ⟨k, hk, hsame⟩ := hkeys e' he'
                exact ⟨k, (keys_prefix_mergeEntries xs later).subset hk, hsame⟩
              · intro e he s hs z hz
                obtain ⟨e', he', rfl⟩ := List.mem_map.mp he
                have hs' : e'.1 = .string s := hs
                -- the result had this key before, so its value shows what is left of the entry
                have hkey := hkeys e' he'
                rw [hs'] at hkey
                obtain ⟨y, hget⟩ := Yaml.Entries.exists_get?_of_key hkey
                have hy := hvalues e' he' s hs' y hget
                rw [get?_mergeEntries hdistinct, hget] at hz
                obtain rfl := Option.some.inj hz
                rw [hs']
                cases hlater : Entries.get? later (.string s) with
                | none => exact hy
                | some w =>
                    obtain ⟨k, hmem, -⟩ := Yaml.Entries.exists_mem_of_get? hlater
                    exact ih e' he' hy (hparts _ hmem).2
      | _ => exact .null _

/-! ## What is shown was checked -/

section Records

variable {φ σ : Type} [DecidableEq φ] (N : Naming φ) {put : φ → Value → σ → Except Fault σ}
  {g : φ → Value}

/-- **What a record of readable settings shows can be read over a record**, if that is so of each of its
settings. -/
theorem exists_readEntries_of_shows {xs entries : List (Value × Value)}
    (hd : (Value.mapping entries).Distinct) (hplain : ∀ e ∈ entries, e.1.isTagged = false)
    (hshows : Shows (.mapping xs) (.mapping entries)) {s₀ s₁ : σ}
    (hread : valueSource.readEntries N.all N.name put [] s₀ xs = .ok s₁)
    (hsuits : ∀ {f v s s'}, put f v s = .ok s' → Fits put f v) (hdefault : ∀ f, Fits put f (g f))
    (hpart : ∀ e ∈ entries, ∀ {f y}, Shows y e.2 → Fits put f y → Fits put f (merge (g f) e.2)) :
    ∃ s', valueSource.readEntries N.all N.name put [] s₀ (mergeEntries (N.record g) entries) =
      .ok s' := by
  cases hshows with
  | whole h => cases h
  | mapping hkeys hvalues =>
      have hknows := knows_of_readEntries N hread hkeys hplain
      rw [N.mergeEntries_record hknows (Value.distinct_mapping.mp hd).1]
      refine exists_readEntries_record N (fun f => ?_) s₀
      cases hget : Entries.get? entries (.string (N.name f)) with
      | none => exact hdefault f
      | some r =>
          obtain ⟨k, hmem, hsame⟩ := Yaml.Entries.exists_mem_of_get? hget
          obtain rfl := Value.string_same_iff.mp hsame
          -- what the result has under this key was read for this setting
          obtain ⟨y, hy⟩ := Yaml.Entries.exists_get?_of_key (hkeys _ hmem)
          obtain ⟨k', hmem', hsame'⟩ := Yaml.Entries.exists_mem_of_get? hy
          obtain rfl := Value.string_same_iff.mp hsame'
          obtain ⟨f', hf', s, s', hput⟩ := exists_of_readEntries N hread _ hmem'
          have hname : N.name f = N.name f' := Value.string.inj hf'
          obtain rfl := N.name_injective hname
          exact hpart _ hmem (hvalues _ hmem _ rfl y hy) (hsuits hput)

/-- The same for a value as a whole, which may be no mapping. -/
theorem exists_read_of_shows (expected : Expected) {x r : Value} (hd : r.Distinct)
    (hplain : r.PlainKeys) (hshows : Shows x r) {s₀ s₁ : σ}
    (hread : (valueSource.entries expected x >>=
      valueSource.readEntries N.all N.name put [] s₀) = .ok s₁)
    (hsuits : ∀ {f v s s'}, put f v s = .ok s' → Fits put f v) (hdefault : ∀ f, Fits put f (g f))
    (hpart : ∀ {f v y}, v.Distinct → v.PlainKeys → Shows y v → Fits put f y →
      Fits put f (merge (g f) v)) :
    ∃ s', (valueSource.entries expected (merge (.mapping (N.record g)) r) >>=
      valueSource.readEntries N.all N.name put [] s₀) = .ok s' := by
  have hbase : ∃ s', (valueSource.entries expected (.mapping (N.record g)) >>=
      valueSource.readEntries N.all N.name put [] s₀) = .ok s' :=
    exists_readEntries_record N hdefault s₀
  cases hshows with
  | null => exact hbase
  | whole hmapping =>
      rcases merge_of_not_isMapping hmapping (.mapping (N.record g)) with ⟨-, hmerge⟩ | ⟨-, hmerge⟩
      · rw [hmerge]
        exact hbase
      · rw [hmerge]
        exact ⟨s₁, hread⟩
  | @mapping xs entries hkeys hvalues =>
      obtain ⟨-, hdparts⟩ := Value.distinct_mapping.mp hd
      obtain ⟨huntagged, hpparts⟩ := Value.everywhere_mapping.mp hplain
      rw [merge]
      refine exists_readEntries_of_shows N hd huntagged (.mapping hkeys hvalues) hread hsuits hdefault ?_
      intro e he f y
      exact hpart (hdparts e he).2 (hpparts e he).2

omit [DecidableEq φ] in
/-- What a value shows suits a setting that no mapping suits, if the value does. -/
theorem fits_merge_of_shows {f : φ} {base : Value} (hbase : Fits put f base)
    (hmapping : ∀ ys, ¬ Fits put f (.mapping ys)) {y r : Value} (hshows : Shows y r)
    (hy : Fits put f y) : Fits put f (merge base r) := by
  cases hshows with
  | null => exact hbase
  | whole h =>
      rcases merge_of_not_isMapping h base with ⟨-, hmerge⟩ | ⟨-, hmerge⟩
      · rw [hmerge]
        exact hbase
      · rw [hmerge]
        exact hy
  | mapping => exact absurd hy (hmapping _)

end Records

theorem fits_downstreamFieldValue (d : Downstream) (f : DownstreamField) :
    Fits valueSource.putDownstream f (downstreamFieldValue d f) := by
  intro s
  obtain ⟨s', hput, -⟩ := exists_putDownstream d s f
  exact ⟨s', hput⟩

theorem not_fits_downstreamField_mapping (f : DownstreamField) (ys : List (Value × Value)) :
    ¬ Fits valueSource.putDownstream f (.mapping ys) := by
  intro h
  obtain ⟨d, hd⟩ := h {}
  cases f <;> cases hd

/-- What a readable value for the tool shows can be read over any settings. -/
theorem exists_readDownstream_of_shows {x r : Value} (hd : r.Distinct) (hplain : r.PlainKeys)
    (hshows : Shows x r) {d₁ : Downstream} (hread : valueSource.readDownstream x = .ok d₁)
    (d : Downstream) : ∃ d', valueSource.readDownstream (merge (downstreamValue d) r) = .ok d' :=
  exists_read_of_shows DownstreamField.naming .downstream hd hplain hshows hread fits_downstreamField
    (fits_downstreamFieldValue d) fun {f} _ _ _ _ hy hfits =>
      fits_merge_of_shows (fits_downstreamFieldValue d f) (not_fits_downstreamField_mapping f) hy hfits

theorem fits_downstream_iff {v : Value} :
    Fits valueSource.putField .downstream v ↔ ∃ d, valueSource.readDownstream v = .ok d := by
  constructor
  · intro h
    obtain ⟨c, hc⟩ := h {}
    obtain ⟨d, hd, -⟩ := bind_eq_ok_iff.mp hc
    exact ⟨d, hd⟩
  · rintro ⟨d, hd⟩ c
    exact ⟨_, bind_eq_ok_iff.mpr ⟨d, hd, rfl⟩⟩

theorem fits_fieldValue (c : Config) (f : Field) :
    Fits valueSource.putField f (fieldValue c f) := by
  intro s
  obtain ⟨s', hput, -⟩ := exists_putField c s f
  exact ⟨s', hput⟩

/-- **What an accepted value shows is accepted over any settings.** -/
theorem exists_ofValue_of_shows {x r : Value} (hd : r.Distinct) (hplain : r.PlainKeys)
    (hshows : Shows x r) {c₁ : Config} (hread : ofValue x = .ok c₁) (c : Config) :
    ∃ d, ofValue (merge (toValue c) r) = .ok d := by
  refine exists_read_of_shows Field.naming .config hd hplain hshows hread fits_field
    (fits_fieldValue c) ?_
  intro f v y hdv hpv hy hfits
  -- one setting is a record of its own, the others hold no mapping
  have hleaf : f ≠ .downstream → Fits valueSource.putField f (merge (fieldValue c f) v) := by
    intro hf
    refine fits_merge_of_shows (fits_fieldValue c f) ?_ hy hfits
    intro ys hys
    obtain ⟨c', hc'⟩ := hys {}
    cases f <;> first | exact absurd rfl hf | cases hc'
  by_cases hf : f = .downstream
  · subst hf
    obtain ⟨d₁, hd₁⟩ := fits_downstream_iff.mp hfits
    exact fits_downstream_iff.mpr (exists_readDownstream_of_shows hdv hpv hy hd₁ c.downstream)
  · exact hleaf hf

/-! ## Stacks of layers -/

/-- What remains of a layer is shown by the whole stack. -/
theorem shows_foldl_merge {x r : Value} (h : Shows x r) {later : List Value}
    (hd : ∀ w ∈ later, w.Distinct) : Shows (later.foldl merge x) (remaining r later) := by
  induction later generalizing x r with
  | nil => exact h
  | cons w rest ih =>
      obtain ⟨hw, hrest⟩ := List.forall_mem_cons.mp hd
      exact ih (h.merge hw) hrest

theorem distinct_remaining {v : Value} (h : v.Distinct) (later : List Value) :
    (remaining v later).Distinct :=
  List.foldlRecOn later remains h fun _ hr w _ => distinct_remains hr w

theorem plainKeys_remaining {v : Value} (h : v.PlainKeys) (later : List Value) :
    (remaining v later).PlainKeys :=
  List.foldlRecOn later remains h fun _ hr w _ => plainKeys_remains hr w

/-- **What remains of a layer in an accepted stack is accepted over the defaults.** -/
theorem accepts_remaining {before later : List Value} {v : Value} (hd : v.Distinct)
    (hplain : v.PlainKeys) (hlater : ∀ w ∈ later, w.Distinct) {c : Config}
    (h : Loader.ofLayers (before ++ v :: later) = .ok c) :
    ∃ d, Loader.ofLayers [remaining v later] = .ok d := by
  have hshows : Shows (mergeAll (toValue default :: (before ++ v :: later))) (remaining v later) := by
    rw [mergeAll, List.foldl_cons, List.foldl_append, List.foldl_cons]
    exact shows_foldl_merge (shows_merge hd _) hlater
  rw [Loader.ofLayers] at h
  cases hread : ofValue (mergeAll (toValue default :: (before ++ v :: later))) with
  | error e =>
      rw [hread] at h
      cases h
  | ok c' =>
      obtain ⟨d, hd'⟩ := exists_ofValue_of_shows (distinct_remaining hd later)
        (plainKeys_remaining hplain later) hshows hread default
      refine ⟨d, ?_⟩
      have hstack : mergeAll [toValue default, remaining v later] =
          merge (toValue default) (remaining v later) := rfl
      rw [Loader.ofLayers, hstack, hd']

end ConfigDrive.Config
