/-
# ConfigDrive.Proofs.Yaml.Distinct — values in which no mapping repeats a key.

Keys are compared by sameness, which looks into sequences and mappings and ignores the order of entries.
On arbitrary lists of entries sameness is not even symmetric: a mapping that repeats a key may be the
same as a longer one seen from one side only.  On the values a reader can build it is an equivalence, and
that is what this module shows.

`Value.Distinct` says that no mapping in a value repeats a key.  On such values sameness is reflexive,
symmetric and transitive (`Distinct.same_refl`, `Distinct.same_symm`, `Distinct.same_trans`), and the
value of every text is one of them (`distinct_ofText`).
-/
import ConfigDrive.Yaml.Read
import Mathlib.Data.Fintype.EquivFin

namespace ConfigDrive.Yaml

/-! ## A property of a value and of all its parts -/

namespace Value

mutual

/-- A property holds of a value and of every value in it, keys included. -/
def Everywhere (P : Value → Prop) : Value → Prop
  | .sequence items => P (.sequence items) ∧ EverywhereItems P items
  | .mapping entries => P (.mapping entries) ∧ EverywhereEntries P entries
  | .tagged tag v => P (.tagged tag v) ∧ Everywhere P v
  | v => P v

/-- The property holds everywhere in these values. -/
def EverywhereItems (P : Value → Prop) : List Value → Prop
  | [] => True
  | v :: vs => Everywhere P v ∧ EverywhereItems P vs

/-- The property holds everywhere in the keys and values of these entries. -/
def EverywhereEntries (P : Value → Prop) : List (Value × Value) → Prop
  | [] => True
  | (k, v) :: es => (Everywhere P k ∧ Everywhere P v) ∧ EverywhereEntries P es

end

variable {P : Value → Prop}

theorem everywhereItems_iff {items : List Value} :
    EverywhereItems P items ↔ ∀ v ∈ items, Everywhere P v := by
  induction items with
  | nil => simp [EverywhereItems]
  | cons v vs ih => simp [EverywhereItems, ih]

theorem everywhereEntries_iff {entries : List (Value × Value)} :
    EverywhereEntries P entries ↔ ∀ e ∈ entries, Everywhere P e.1 ∧ Everywhere P e.2 := by
  induction entries with
  | nil => simp [EverywhereEntries]
  | cons e es ih => simp [EverywhereEntries, ih]

theorem everywhere_sequence {items : List Value} :
    Everywhere P (.sequence items) ↔ P (.sequence items) ∧ ∀ v ∈ items, Everywhere P v := by
  rw [Everywhere, everywhereItems_iff]

theorem everywhere_mapping {entries : List (Value × Value)} :
    Everywhere P (.mapping entries) ↔
      P (.mapping entries) ∧ ∀ e ∈ entries, Everywhere P e.1 ∧ Everywhere P e.2 := by
  rw [Everywhere, everywhereEntries_iff]

/-- What holds everywhere holds at the top. -/
theorem Everywhere.top {v : Value} (h : Everywhere P v) : P v := by
  cases v with
  | sequence items => exact (everywhere_sequence.mp h).1
  | mapping entries => exact (everywhere_mapping.mp h).1
  | tagged tag v => exact h.1
  | null | bool | int | float | string => exact h

/-! ## Values without repeated keys -/

/-- The value is no mapping that repeats a key. -/
def KeysDistinct : Value → Prop
  | .mapping entries => Entries.Distinct entries
  | _ => True

/-- No mapping in the value repeats a key. -/
def Distinct (v : Value) : Prop :=
  Everywhere KeysDistinct v

theorem distinct_sequence {items : List Value} :
    (Value.sequence items).Distinct ↔ ∀ v ∈ items, v.Distinct := by
  rw [Distinct, everywhere_sequence]
  exact and_iff_right trivial

theorem distinct_mapping {entries : List (Value × Value)} :
    (Value.mapping entries).Distinct ↔
      Entries.Distinct entries ∧ ∀ e ∈ entries, e.1.Distinct ∧ e.2.Distinct :=
  everywhere_mapping

theorem distinct_tagged {tag : Tag} {v : Value} : (Value.tagged tag v).Distinct ↔ v.Distinct := by
  rw [Distinct, Everywhere]
  exact and_iff_right trivial

end Value

/-! ## Looking up entries -/

namespace Entries

theorem get?_cons (e : Value × Value) (entries : List (Value × Value)) (key : Value) :
    get? (e :: entries) key = if key.same e.1 then some e.2 else get? entries key := by
  by_cases h : key.same e.1 = true
  · simp [get?, h]
  · simp [get?, h]

/-- What a look-up finds stands under a key that is the same. -/
theorem exists_mem_of_get? {entries : List (Value × Value)} {key v : Value}
    (h : get? entries key = some v) : ∃ k, (k, v) ∈ entries ∧ key.same k = true := by
  rw [get?, Option.map_eq_some_iff] at h
  obtain ⟨⟨k, w⟩, hfind, rfl⟩ := h
  have hsame := List.find?_some (p := fun e : Value × Value => key.same e.1) hfind
  exact ⟨k, List.mem_of_find?_eq_some hfind, hsame⟩

theorem get?_eq_none_iff {entries : List (Value × Value)} {key : Value} :
    get? entries key = none ↔ ∀ e ∈ entries, key.same e.1 = false := by
  simp [get?]

theorem distinct_iff_pairwise {entries : List (Value × Value)} :
    Distinct entries ↔ entries.Pairwise fun e f => e.1.same f.1 = false := by
  induction entries with
  | nil => simp [Distinct]
  | cons e es ih => simp [Distinct, ih]

end Entries

/-! ## Sameness of collections, entry by entry -/

namespace Value

theorem sameItems_iff {as bs : List Value} :
    sameItems as bs = true ↔ List.Forall₂ (fun a b => a.same b = true) as bs := by
  induction as generalizing bs with
  | nil => cases bs <;> simp [sameItems]
  | cons a as ih => cases bs <;> simp [sameItems, ih]

theorem sameEntries_iff {as bs : List (Value × Value)} :
    sameEntries as bs = true ↔
      ∀ e ∈ as, ∃ w, Entries.get? bs e.1 = some w ∧ e.2.same w = true := by
  induction as with
  | nil => simp [sameEntries]
  | cons e as ih =>
      obtain ⟨k, v⟩ := e
      simp only [sameEntries, Bool.and_eq_true, ih, List.forall_mem_cons]
      refine and_congr_left' ?_
      rw [Entries.get?]
      cases bs.find? fun f => k.same f.1 <;> simp

theorem same_mapping_iff {as bs : List (Value × Value)} :
    (Value.mapping as).same (.mapping bs) = true ↔
      as.length = bs.length ∧
        ∀ e ∈ as, ∃ w, Entries.get? bs e.1 = some w ∧ e.2.same w = true := by
  rw [same, Bool.and_eq_true, beq_iff_eq, sameEntries_iff]

/-! ## Sameness is an equivalence -/

theorem sizeOf_item_lt {items : List Value} {v : Value} (h : v ∈ items) :
    sizeOf v < sizeOf (Value.sequence items) := by
  have hlt := List.sizeOf_lt_of_mem h
  rw [Value.sequence.sizeOf_spec]
  omega

theorem sizeOf_key_lt {entries : List (Value × Value)} {e : Value × Value} (h : e ∈ entries) :
    sizeOf e.1 < sizeOf (Value.mapping entries) ∧ sizeOf e.2 < sizeOf (Value.mapping entries) := by
  have hlt := List.sizeOf_lt_of_mem h
  have hpair : sizeOf e = 1 + sizeOf e.1 + sizeOf e.2 := Prod.mk.sizeOf_spec e.1 e.2
  rw [Value.mapping.sizeOf_spec]
  constructor <;> omega

/-- Sameness is an equivalence on the values without repeated keys below a size. -/
structure SameBelow (n : Nat) : Prop where
  refl : ∀ {a : Value}, sizeOf a < n → a.Distinct → a.same a = true
  symm : ∀ {a b : Value}, sizeOf a < n → sizeOf b < n → a.Distinct → b.Distinct →
    a.same b = true → b.same a = true
  trans : ∀ {a b c : Value}, sizeOf a < n → sizeOf b < n → sizeOf c < n →
    a.Distinct → b.Distinct → c.Distinct → a.same b = true → b.same c = true → a.same c = true

/-- Keys and values of these entries are below a size and repeat no key. -/
def Below (n : Nat) (entries : List (Value × Value)) : Prop :=
  ∀ e ∈ entries, (sizeOf e.1 < n ∧ sizeOf e.2 < n) ∧ e.1.Distinct ∧ e.2.Distinct

theorem below_of_mapping {n : Nat} {entries : List (Value × Value)}
    (hsize : sizeOf (Value.mapping entries) < n + 1) (hd : (Value.mapping entries).Distinct) :
    Below n entries := by
  intro e he
  have hlt := sizeOf_key_lt he
  exact ⟨⟨by omega, by omega⟩, (distinct_mapping.mp hd).2 e he⟩

/-- In a mapping without repeated keys a look-up finds every entry whose key is the same. -/
theorem SameBelow.get?_of_mem {n : Nat} (hn : SameBelow n) {entries : List (Value × Value)}
    (hb : Below n entries) (hd : Entries.Distinct entries) {key k v : Value} (hsize : sizeOf key < n)
    (hkey : key.Distinct) (hmem : (k, v) ∈ entries) (hsame : key.same k = true) :
    Entries.get? entries key = some v := by
  induction entries with
  | nil => simp at hmem
  | cons e es ih =>
      rw [Entries.get?_cons]
      obtain ⟨⟨hesize, -⟩, hedist, -⟩ := hb e (by simp)
      -- an earlier entry with the same key would have the key of this one, too
      rcases List.mem_cons.mp hmem with rfl | htail
      · rw [if_pos hsame]
      · obtain ⟨⟨hksize, -⟩, hkdist, -⟩ := hb (k, v) hmem
        have hne : ¬ key.same e.1 = true := by
          intro hhead
          have hback := hn.symm hsize hesize hkey hedist hhead
          have hek := hn.trans hesize hsize hksize hedist hkey hkdist hback hsame
          rw [hd.1 (k, v) htail] at hek
          exact Bool.false_ne_true hek
        rw [if_neg hne]
        exact ih (fun f hf => hb f (List.mem_cons_of_mem _ hf)) hd.2 htail

/-- A relation under which every element on the left has a partner on the right, and no two have the
same, is an injection. -/
theorem exists_injective_partner {α β : Type} {R : α → β → Prop} {as : List α} {bs : List β}
    (hex : ∀ a ∈ as, ∃ b ∈ bs, R a b)
    (hinj : as.Pairwise fun a a' => ∀ b ∈ bs, R a b → ¬ R a' b) :
    ∃ g : Fin as.length → Fin bs.length, Function.Injective g ∧ ∀ i, R (as.get i) (bs.get (g i)) := by
  have hpick : ∀ i : Fin as.length, ∃ j : Fin bs.length, R (as.get i) (bs.get j) := by
    intro i
    obtain ⟨b, hb, hR⟩ := hex (as.get i) (List.get_mem _ _)
    obtain ⟨j, hj, rfl⟩ := List.mem_iff_getElem.mp hb
    exact ⟨⟨j, hj⟩, hR⟩
  choose g hg using hpick
  refine ⟨g, ?_, hg⟩
  intro i i' hii
  by_contra hne
  have hpair := List.pairwise_iff_getElem.mp hinj
  rcases Nat.lt_or_gt_of_ne (fun h => hne (Fin.ext h)) with hlt | hlt
  · exact hpair i i' i.2 i'.2 hlt _ (List.getElem_mem _) (hg i) (by rw [hii]; exact hg i')
  · exact hpair i' i i'.2 i.2 hlt _ (List.getElem_mem _) (hg i') (by rw [← hii]; exact hg i)

/-- Between lists of one length, such a relation gives every element on the right a partner. -/
theorem exists_partner {α β : Type} {R : α → β → Prop} {as : List α} {bs : List β}
    (hlength : as.length = bs.length) (hex : ∀ a ∈ as, ∃ b ∈ bs, R a b)
    (hinj : as.Pairwise fun a a' => ∀ b ∈ bs, R a b → ¬ R a' b) : ∀ b ∈ bs, ∃ a ∈ as, R a b := by
  obtain ⟨g, hginj, hg⟩ := exists_injective_partner hex hinj
  -- between types of one size what is injective is onto
  have hbij := (Fintype.bijective_iff_injective_and_card g).mpr ⟨hginj, by simp [hlength]⟩
  intro b hb
  obtain ⟨j, hj, rfl⟩ := List.mem_iff_getElem.mp hb
  obtain ⟨i, hi⟩ := hbij.2 ⟨j, hj⟩
  have hR := hg i
  rw [hi] at hR
  exact ⟨as.get i, List.get_mem _ _, hR⟩

/-- The list on the right is no shorter. -/
theorem length_le_of_partner {α β : Type} {R : α → β → Prop} {as : List α} {bs : List β}
    (hex : ∀ a ∈ as, ∃ b ∈ bs, R a b)
    (hinj : as.Pairwise fun a a' => ∀ b ∈ bs, R a b → ¬ R a' b) : as.length ≤ bs.length := by
  obtain ⟨g, hginj, -⟩ := exists_injective_partner hex hinj
  simpa using Fintype.card_le_of_injective g hginj

theorem SameBelow.refl_mapping {n : Nat} (hn : SameBelow n) {entries : List (Value × Value)}
    (hb : Below n entries) (hd : Entries.Distinct entries) :
    (Value.mapping entries).same (.mapping entries) = true := by
  refine same_mapping_iff.mpr ⟨rfl, ?_⟩
  intro e he
  obtain ⟨⟨hksize, hvsize⟩, hkdist, hvdist⟩ := hb e he
  exact ⟨e.2, hn.get?_of_mem hb hd hksize hkdist he (hn.refl hksize hkdist), hn.refl hvsize hvdist⟩

theorem SameBelow.symm_mapping {n : Nat} (hn : SameBelow n) {as bs : List (Value × Value)}
    (ha : Below n as) (hb : Below n bs) (hda : Entries.Distinct as)
    (h : (Value.mapping as).same (.mapping bs) = true) :
    (Value.mapping bs).same (.mapping as) = true := by
  obtain ⟨hlength, hentries⟩ := same_mapping_iff.mp h
  have hex : ∀ e ∈ as, ∃ f ∈ bs, e.1.same f.1 = true ∧ e.2.same f.2 = true := by
    intro e he
    obtain ⟨w, hget, hsame⟩ := hentries e he
    obtain ⟨k, hmem, hkey⟩ := Entries.exists_mem_of_get? hget
    exact ⟨(k, w), hmem, hkey, hsame⟩
  -- two entries with one partner would have the same key
  have hinj : as.Pairwise fun e e' => ∀ f ∈ bs, (e.1.same f.1 = true ∧ e.2.same f.2 = true) →
      ¬ (e'.1.same f.1 = true ∧ e'.2.same f.2 = true) := by
    refine (Entries.distinct_iff_pairwise.mp hda).imp_of_mem ?_
    intro e e' he he' hne f hf hef he'f
    obtain ⟨⟨hesize, -⟩, hedist, -⟩ := ha e he
    obtain ⟨⟨he'size, -⟩, he'dist, -⟩ := ha e' he'
    obtain ⟨⟨hfsize, -⟩, hfdist, -⟩ := hb f hf
    have hback := hn.symm he'size hfsize he'dist hfdist he'f.1
    have hsame := hn.trans hesize hfsize he'size hedist hfdist he'dist hef.1 hback
    rw [hne] at hsame
    exact Bool.false_ne_true hsame
  refine same_mapping_iff.mpr ⟨hlength.symm, ?_⟩
  intro f hf
  obtain ⟨e, he, hkey, hvalue⟩ := exists_partner hlength hex hinj f hf
  obtain ⟨⟨hksize, hvsize⟩, hkdist, hvdist⟩ := ha e he
  obtain ⟨⟨hfksize, hfvsize⟩, hfkdist, hfvdist⟩ := hb f hf
  have hback := hn.symm hksize hfksize hkdist hfkdist hkey
  exact ⟨e.2, hn.get?_of_mem ha hda hfksize hfkdist he hback,
    hn.symm hvsize hfvsize hvdist hfvdist hvalue⟩

theorem SameBelow.trans_mapping {n : Nat} (hn : SameBelow n) {as bs cs : List (Value × Value)}
    (ha : Below n as) (hb : Below n bs) (hc : Below n cs) (hdc : Entries.Distinct cs)
    (hab : (Value.mapping as).same (.mapping bs) = true)
    (hbc : (Value.mapping bs).same (.mapping cs) = true) :
    (Value.mapping as).same (.mapping cs) = true := by
  obtain ⟨hlab, heab⟩ := same_mapping_iff.mp hab
  obtain ⟨hlbc, hebc⟩ := same_mapping_iff.mp hbc
  refine same_mapping_iff.mpr ⟨hlab.trans hlbc, ?_⟩
  intro e he
  -- from an entry to its partner, and on to the partner of that one
  obtain ⟨v, hv, hev⟩ := heab e he
  obtain ⟨k, hkmem, hek⟩ := Entries.exists_mem_of_get? hv
  obtain ⟨w, hw, hvw⟩ := hebc (k, v) hkmem
  obtain ⟨l, hlmem, hkl⟩ := Entries.exists_mem_of_get? hw
  obtain ⟨⟨heksize, hevsize⟩, hekdist, hevdist⟩ := ha e he
  obtain ⟨⟨hksize, hvsize⟩, hkdist, hvdist⟩ := hb (k, v) hkmem
  obtain ⟨⟨hlsize, hwsize⟩, hldist, hwdist⟩ := hc (l, w) hlmem
  have hel := hn.trans heksize hksize hlsize hekdist hkdist hldist hek hkl
  exact ⟨w, hn.get?_of_mem hc hdc heksize hekdist hlmem hel,
    hn.trans hevsize hvsize hwsize hevdist hvdist hwdist hev hvw⟩

/-- These values are below a size and repeat no key. -/
def BelowItems (n : Nat) (items : List Value) : Prop :=
  ∀ v ∈ items, sizeOf v < n ∧ v.Distinct

theorem belowItems_of_sequence {n : Nat} {items : List Value}
    (hsize : sizeOf (Value.sequence items) < n + 1) (hd : (Value.sequence items).Distinct) :
    BelowItems n items := by
  intro v hv
  have hlt := sizeOf_item_lt hv
  exact ⟨by omega, distinct_sequence.mp hd v hv⟩

theorem SameBelow.symm_items {n : Nat} (hn : SameBelow n) {as bs : List Value}
    (ha : BelowItems n as) (hb : BelowItems n bs) (h : sameItems as bs = true) :
    sameItems bs as = true := by
  induction as generalizing bs with
  | nil =>
      cases bs with
      | nil => rfl
      | cons b bs => exact absurd h Bool.false_ne_true
  | cons a as ih =>
      cases bs with
      | nil => exact absurd h Bool.false_ne_true
      | cons b bs =>
          rw [sameItems, Bool.and_eq_true] at h ⊢
          obtain ⟨hasize, hadist⟩ := ha a (by simp)
          obtain ⟨hbsize, hbdist⟩ := hb b (by simp)
          exact ⟨hn.symm hasize hbsize hadist hbdist h.1,
            ih (fun v hv => ha v (List.mem_cons_of_mem _ hv))
              (fun v hv => hb v (List.mem_cons_of_mem _ hv)) h.2⟩

theorem SameBelow.trans_items {n : Nat} (hn : SameBelow n) {as bs cs : List Value}
    (ha : BelowItems n as) (hb : BelowItems n bs) (hc : BelowItems n cs)
    (hab : sameItems as bs = true) (hbc : sameItems bs cs = true) : sameItems as cs = true := by
  rw [sameItems_iff] at hab hbc ⊢
  induction hab generalizing cs with
  | nil => exact hbc
  | @cons a b as bs h _ ih =>
      cases hbc with
      | @cons _ c _ cs h' htail =>
          obtain ⟨hasize, hadist⟩ := ha a (by simp)
          obtain ⟨hbsize, hbdist⟩ := hb b (by simp)
          obtain ⟨hcsize, hcdist⟩ := hc c (by simp)
          exact .cons (hn.trans hasize hbsize hcsize hadist hbdist hcdist h h')
            (ih (fun v hv => ha v (List.mem_cons_of_mem _ hv))
              (fun v hv => hb v (List.mem_cons_of_mem _ hv))
              (fun v hv => hc v (List.mem_cons_of_mem _ hv)) htail)

/-- One level up: collections compare their parts, and all else is compared as it is. -/
theorem SameBelow.succ {n : Nat} (hn : SameBelow n) : SameBelow (n + 1) where
  refl {a} hsize hd := by
    cases a with
    | sequence items =>
        rw [same, sameItems_iff, List.forall₂_same]
        intro v hv
        obtain ⟨hvsize, hvdist⟩ := belowItems_of_sequence hsize hd v hv
        exact hn.refl hvsize hvdist
    | mapping entries =>
        exact hn.refl_mapping (below_of_mapping hsize hd) (distinct_mapping.mp hd).1
    | tagged tag v =>
        rw [Value.tagged.sizeOf_spec] at hsize
        simp only [same, beq_self_eq_true, Bool.true_and]
        exact hn.refl (by omega) (distinct_tagged.mp hd)
    | float x => exact x.same_refl
    | null | bool | int | string => simp [same]
  symm {a b} hasize hbsize hda hdb h := by
    -- values of different kinds are not the same
    cases a <;> cases b <;> try exact absurd h Bool.false_ne_true
    case sequence.sequence as bs =>
      exact hn.symm_items (belowItems_of_sequence hasize hda) (belowItems_of_sequence hbsize hdb) h
    case mapping.mapping as bs =>
      exact hn.symm_mapping (below_of_mapping hasize hda) (below_of_mapping hbsize hdb)
        (distinct_mapping.mp hda).1 h
    case tagged.tagged s v t w =>
      rw [Value.tagged.sizeOf_spec] at hasize hbsize
      simp only [same, Bool.and_eq_true, beq_iff_eq] at h ⊢
      exact ⟨h.1.symm, hn.symm (by omega) (by omega) (distinct_tagged.mp hda)
        (distinct_tagged.mp hdb) h.2⟩
    case float.float x y => exact Decimal.Binary64.same_symm h
    case null.null => rfl
    all_goals
      simp only [same, beq_iff_eq] at h ⊢
      exact h.symm
  trans {a b c} hasize hbsize hcsize hda hdb hdc hab hbc := by
    cases a <;> cases b <;> (try exact absurd hab Bool.false_ne_true) <;>
      cases c <;> try exact absurd hbc Bool.false_ne_true
    case sequence.sequence.sequence as bs cs =>
      exact hn.trans_items (belowItems_of_sequence hasize hda) (belowItems_of_sequence hbsize hdb)
        (belowItems_of_sequence hcsize hdc) hab hbc
    case mapping.mapping.mapping as bs cs =>
      exact hn.trans_mapping (below_of_mapping hasize hda) (below_of_mapping hbsize hdb)
        (below_of_mapping hcsize hdc) (distinct_mapping.mp hdc).1 hab hbc
    case tagged.tagged.tagged s u t v r w =>
      rw [Value.tagged.sizeOf_spec] at hasize hbsize hcsize
      simp only [same, Bool.and_eq_true, beq_iff_eq] at hab hbc ⊢
      exact ⟨hab.1.trans hbc.1, hn.trans (by omega) (by omega) (by omega) (distinct_tagged.mp hda)
        (distinct_tagged.mp hdb) (distinct_tagged.mp hdc) hab.2 hbc.2⟩
    case float.float.float x y z => exact Decimal.Binary64.same_trans hab hbc
    case null.null.null => rfl
    all_goals
      simp only [same, beq_iff_eq] at hab hbc ⊢
      exact hab.trans hbc

theorem sameBelow (n : Nat) : SameBelow n := by
  induction n with
  | zero => constructor <;> omega
  | succ n ih => exact ih.succ

namespace Distinct

/-- A value without repeated keys is the same as itself. -/
theorem same_refl {a : Value} (ha : a.Distinct) : a.same a = true :=
  (sameBelow (sizeOf a + 1)).refl (by omega) ha

/-- Sameness of values without repeated keys does not depend on the side from which one looks. -/
theorem same_symm {a b : Value} (ha : a.Distinct) (hb : b.Distinct) (h : a.same b = true) :
    b.same a = true :=
  (sameBelow (sizeOf a + sizeOf b + 1)).symm (by omega) (by omega) ha hb h

/-- Two values without repeated keys that are the same as a third are the same. -/
theorem same_trans {a b c : Value} (ha : a.Distinct) (hb : b.Distinct) (hc : c.Distinct)
    (hab : a.same b = true) (hbc : b.same c = true) : a.same c = true :=
  (sameBelow (sizeOf a + sizeOf b + sizeOf c + 1)).trans (by omega) (by omega) (by omega)
    ha hb hc hab hbc

end Distinct

end Value

end ConfigDrive.Yaml
