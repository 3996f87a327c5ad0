/-
# ConfigDrive.Proofs.Config.Refusing — why a value is no configuration.

A value that is not accepted is refused with one fault, and that is the one of the first entry that is at
fault: the entries before it are in good form (`Naming.Refuses`), whatever comes after it.  An entry can be
at fault in four ways (`Naming.Offends`), the last of which is that its value is; so a fault in the settings
for the tool is found in the same manner one level down, and one in a list is that of its first item that is
no text.

Together with the grammar of what is accepted this says all that there is to say about a value
(`ofValue_follows_grammar`), whatever tags it carries.
-/
import ConfigDrive.Proofs.Config.Accepting
import ConfigDrive.Proofs.Config.Erasing

namespace ConfigDrive.Config

open ConfigDrive.Yaml (Value)
open ConfigDrive.Yaml.Entries (get? keys)

/-! ## Faults -/

/-- What is wrong with a value that should be a list of texts: it is no list, or its first item that is no
text is none. -/
inductive TextsFault (expected : Expected) : Value → Fault → Prop
  | kind {v : Value} (null : v ≠ .null) (sequence : ∀ items, v ≠ .sequence items) :
      TextsFault expected v (misfit v .sequence)
  | item {ss : List String} {v : Value} {rest : List Value} (misfits : ¬ IsText v) :
      TextsFault expected (.sequence (ss.map .string ++ v :: rest))
        ((misfit v expected).under (.item ss.length))

namespace Naming

variable {φ : Type} (N : Naming φ)

/-- What is wrong with an entry, when some settings have been named before it: its key is no text, names no
setting, or names one again, or its value is at fault. -/
inductive Offends (faulty : φ → Value → Fault → Prop) (named : φ → Prop) :
    Value × Value → Fault → Prop
  | key {k v : Value} (misfits : ¬ IsText k) : Offends faulty named (k, v) (misfit k .key)
  | unknown {key : String} {v : Value} (names : ∀ f, N.name f ≠ key) :
      Offends faulty named (.string key, v) (.here (.unknownField key (N.all.map N.name)))
  | again {f : φ} {v : Value} (twice : named f) :
      Offends faulty named (.string (N.name f), v) (.here (.duplicateField (N.name f)))
  | value {f : φ} {v : Value} {fault : Fault} (once : ¬ named f) (faults : faulty f v fault) :
      Offends faulty named (.string (N.name f), v) (fault.under (.field (N.name f)))

/-- What is wrong with a value that should be a mapping of settings: it is no mapping, or its first entry
that is at fault is. -/
inductive Refuses (expected : Expected) (suits : φ → Value → Prop) (faulty : φ → Value → Fault → Prop) :
    Value → Fault → Prop
  | kind {v : Value} (null : v ≠ .null) (mapping : ∀ entries, v ≠ .mapping entries) :
      Refuses expected suits faulty v (misfit v expected)
  | entry {before after : List (Value × Value)} {e : Value × Value} {fault : Fault}
      (form : N.WellFormed suits before)
      (first : N.Offends faulty (fun f => .string (N.name f) ∈ keys before) e fault) :
      Refuses expected suits faulty (.mapping (before ++ e :: after)) fault

end Naming

/-- What is wrong with the value of a setting for the tool. -/
def DownstreamField.Faulty : DownstreamField → Value → Fault → Prop
  | .program => fun v fault => ¬ IsText v ∧ fault = misfit v .text
  | .useNm => fun v fault => ¬ IsSwitch v ∧ fault = misfit v .boolean
  | .noDhcpFallback => fun v fault => ¬ IsSwitch v ∧ fault = misfit v .boolean
  | .debug => fun v fault => ¬ IsSwitch v ∧ fault = misfit v .boolean
  | .extraArgs => TextsFault .text

/-- What is wrong with the value of a setting of a run. -/
def Field.Faulty : Field → Value → Fault → Prop
  | .mountPoint => fun v fault => ¬ IsText v ∧ fault = misfit v .path
  | .searchPath => TextsFault .path
  | .blkid => fun v fault => ¬ IsText v ∧ fault = misfit v .text
  | .mount => fun v fault => ¬ IsText v ∧ fault = misfit v .text
  | .downstream =>
      DownstreamField.naming.Refuses .downstream DownstreamField.Suits DownstreamField.Faulty

/-! ## Results that are faults -/

theorem bind_eq_error_iff {ε α β : Type} {r : Except ε α} {f : α → Except ε β} {e : ε} :
    (r >>= f) = .error e ↔ r = .error e ∨ ∃ a, r = .ok a ∧ f a = .error e := by
  cases r with
  | ok a =>
      constructor
      · intro h
        exact .inr ⟨a, rfl, h⟩
      · rintro (h | ⟨a', h, hf⟩)
        · cases h
        · cases h
          exact hf
  | error e' =>
      constructor
      · intro h
        cases h
        exact .inl rfl
      · rintro (h | ⟨a, h, -⟩) <;> cases h
        rfl

theorem within_eq_error_iff {α : Type} {step : Step} {r : Except Fault α} {fault : Fault} :
    within step r = .error fault ↔ ∃ inner, r = .error inner ∧ fault = inner.under step := by
  cases r <;> simp [within, eq_comm]

section Primitives

variable {v : Value} (ht : v.TagFree) {fault : Fault}

include ht

theorem text_eq_error_iff {expected : Expected} :
    valueSource.text expected v = .error fault ↔ ¬ IsText v ∧ fault = misfit v expected := by
  cases v with
  | tagged tag w => cases ht.top
  | _ => simp [valueSource, Value.untag, IsText, eq_comm]

theorem boolean_eq_error_iff :
    valueSource.boolean v = .error fault ↔ ¬ IsSwitch v ∧ fault = misfit v .boolean := by
  cases v with
  | tagged tag w => cases ht.top
  | _ => simp [valueSource, Value.untag, IsSwitch, eq_comm]

theorem items_eq_error_iff :
    valueSource.items v = .error fault ↔
      v ≠ .null ∧ (∀ items, v ≠ .sequence items) ∧ fault = misfit v .sequence := by
  cases v with
  | tagged tag w => cases ht.top
  | _ => simp [valueSource, Value.untag, eq_comm]

theorem entries_eq_error_iff {expected : Expected} :
    valueSource.entries expected v = .error fault ↔
      v ≠ .null ∧ (∀ entries, v ≠ .mapping entries) ∧ fault = misfit v expected := by
  cases v with
  | tagged tag w => cases ht.top
  | _ => simp [valueSource, Value.untag, eq_comm]

end Primitives

/-! ## Lists of texts -/

/-- The first item that is no text is at fault. -/
theorem textsFrom_eq_error_iff {expected : Expected} {items : List Value}
    (ht : ∀ v ∈ items, v.TagFree) {index : Nat} {fault : Fault} :
    valueSource.textsFrom expected index items = .error fault ↔
      ∃ (ss : List String) (v : Value) (rest : List Value),
        items = ss.map .string ++ v :: rest ∧ ¬ IsText v ∧
          fault = (misfit v expected).under (.item (index + ss.length)) := by
  induction items generalizing index with
  | nil => simp [Source.textsFrom]
  | cons v items ih =>
      obtain ⟨hv, hitems⟩ := List.forall_mem_cons.mp ht
      rw [Source.textsFrom, bind_eq_error_iff, within_eq_error_iff]
      constructor
      · rintro (⟨inner, htext, rfl⟩ | ⟨s, htext, hrest⟩)
        · obtain ⟨hmisfits, rfl⟩ := (text_eq_error_iff hv).mp htext
          exact ⟨[], v, items, rfl, hmisfits, rfl⟩
        · rw [within_eq_ok_iff, text_eq_ok_iff, hv.untag] at htext
          rw [bind_eq_error_iff, ih hitems] at hrest
          obtain ⟨ss, w, rest, rfl, hmisfits, rfl⟩ | ⟨_, _, hpure⟩ := hrest
          · refine ⟨s :: ss, w, rest, by rw [htext]; rfl, hmisfits, ?_⟩
            rw [List.length_cons, Nat.add_right_comm, Nat.add_assoc]
          · cases hpure
      · rintro ⟨ss, w, rest, hsplit, hmisfits, rfl⟩
        cases ss with
        | nil =>
            obtain ⟨rfl, rfl⟩ := List.cons.inj hsplit
            exact .inl ⟨_, (text_eq_error_iff hv).mpr ⟨hmisfits, rfl⟩, rfl⟩
        | cons s ss =>
            obtain ⟨rfl, hrest⟩ := List.cons.inj hsplit
            refine .inr ⟨s, rfl, bind_eq_error_iff.mpr (.inl ?_)⟩
            refine (ih hitems).mpr ⟨ss, w, rest, hrest, hmisfits, ?_⟩
            rw [List.length_cons, Nat.add_right_comm, Nat.add_assoc]

theorem texts_eq_error_iff {v : Value} (ht : v.TagFree) {expected : Expected} {fault : Fault} :
    valueSource.texts expected v = .error fault ↔ TextsFault expected v fault := by
  rw [Source.texts, bind_eq_error_iff, items_eq_error_iff ht]
  constructor
  · rintro (⟨hnull, hsequence, rfl⟩ | ⟨items, hitems, hread⟩)
    · exact .kind hnull hsequence
    · rw [items_eq_ok_iff, ht.untag] at hitems
      rcases hitems with rfl | ⟨rfl, rfl⟩
      · obtain ⟨ss, w, rest, rfl, hmisfits, rfl⟩ :=
          (textsFrom_eq_error_iff (Value.everywhere_sequence.mp ht).2).mp hread
        rw [Nat.zero_add]
        exact .item hmisfits
      · cases hread
  · rintro (⟨hnull, hsequence⟩ | hmisfits)
    · exact .inl ⟨hnull, hsequence, rfl⟩
    · refine .inr ⟨_, rfl, (textsFrom_eq_error_iff (Value.everywhere_sequence.mp ht).2).mpr ?_⟩
      exact ⟨_, _, _, rfl, hmisfits, by rw [Nat.zero_add]⟩

/-! ## Entries -/

section Entries

variable {φ σ : Type} [DecidableEq φ] (N : Naming φ) {put : φ → Value → σ → Except Fault σ}
  {suits : φ → Value → Prop} {faulty : φ → Value → Fault → Prop}

/-- A key is refused if it names no setting, or one that was named before. -/
theorem newField_eq_error_iff {seen : List φ} {key : String} {fault : Fault} :
    Source.newField N.all N.name seen key = .error fault ↔
      (∀ f, N.name f ≠ key) ∧ fault = .here (.unknownField key (N.all.map N.name)) ∨
        ∃ f ∈ seen, N.name f = key ∧ fault = .here (.duplicateField key) := by
  unfold Source.newField
  cases hfind : N.all.find? (N.name · == key) with
  | none =>
      have hunknown : ∀ f, N.name f ≠ key := by
        intro f
        simpa using List.find?_eq_none.mp hfind f (N.mem_all f)
      simp [hunknown, eq_comm]
  | some g =>
      obtain rfl : N.name g = key := by simpa using List.find?_some hfind
      by_cases hseen : g ∈ seen
      · simp only [List.contains_iff_mem, hseen, if_true, Except.error.injEq]
        constructor
        · intro h
          exact .inr ⟨g, hseen, rfl, h.symm⟩
        · rintro (⟨hunknown, -⟩ | ⟨f, -, -, rfl⟩)
          · exact absurd rfl (hunknown g)
          · rfl
      · simp [hseen, N.name_injective.eq_iff]

section Faulty

variable (hfaulty : ∀ {f v} s {fault}, v.TagFree → (put f v s = .error fault ↔ faulty f v fault))

include hfaulty

/-- **One entry**: it is at fault, or it is read and a fault is found among those after it. -/
theorem readEntries_cons_eq_error_iff {k v : Value} (hkey : k.TagFree) (hvalue : v.TagFree)
    {seen : List φ} {s : σ} {rest : List (Value × Value)} {fault : Fault} :
    valueSource.readEntries N.all N.name put seen s ((k, v) :: rest) = .error fault ↔
      N.Offends faulty (· ∈ seen) (k, v) fault ∨
        ∃ f s₁, k = .string (N.name f) ∧ f ∉ seen ∧ put f v s = .ok s₁ ∧
          valueSource.readEntries N.all N.name put (f :: seen) s₁ rest = .error fault := by
  rw [Source.readEntries, bind_eq_error_iff, text_eq_error_iff hkey]
  constructor
  · rintro (⟨hmisfits, rfl⟩ | ⟨key, htext, hread⟩)
    · exact .inl (.key hmisfits)
    · obtain rfl : k = .string key := by
        rw [← hkey.untag]
        exact text_eq_ok_iff.mp htext
      rcases bind_eq_error_iff.mp hread with hfield | ⟨f, hfield, hread⟩
      · rcases (newField_eq_error_iff N).mp hfield with ⟨hunknown, rfl⟩ | ⟨f, hseen, rfl, rfl⟩
        · exact .inl (.unknown hunknown)
        · exact .inl (.again hseen)
      · obtain ⟨rfl, hnew⟩ := (newField_eq_ok_iff N).mp hfield
        rcases bind_eq_error_iff.mp hread with hput | ⟨s₁, hput, hread⟩
        · obtain ⟨inner, hinner, rfl⟩ := within_eq_error_iff.mp hput
          exact .inl (.value hnew ((hfaulty s hvalue).mp hinner))
        · exact .inr ⟨f, s₁, rfl, hnew, within_eq_ok_iff.mp hput, hread⟩
  · rintro (hoffends | ⟨f, s₁, hname, hnew, hput, hread⟩)
    · cases hoffends with
      | key hmisfits => exact .inl ⟨hmisfits, rfl⟩
      | unknown hunknown =>
          refine .inr ⟨_, rfl, bind_eq_error_iff.mpr (.inl ?_)⟩
          exact (newField_eq_error_iff N).mpr (.inl ⟨hunknown, rfl⟩)
      | @again f _ hseen =>
          refine .inr ⟨_, rfl, bind_eq_error_iff.mpr (.inl ?_)⟩
          exact (newField_eq_error_iff N).mpr (.inr ⟨f, hseen, rfl, rfl⟩)
      | @value f _ inner hnew hfault =>
          refine .inr ⟨_, rfl, bind_eq_error_iff.mpr (.inr ⟨f, ?_, ?_⟩)⟩
          · exact (newField_eq_ok_iff N).mpr ⟨rfl, hnew⟩
          · refine bind_eq_error_iff.mpr (.inl (within_eq_error_iff.mpr ⟨inner, ?_, rfl⟩))
            exact (hfaulty s hvalue).mpr hfault
    · obtain rfl : k = .string (N.name f) := hname
      refine .inr ⟨_, rfl, bind_eq_error_iff.mpr (.inr ⟨f, ?_, ?_⟩)⟩
      · exact (newField_eq_ok_iff N).mpr ⟨rfl, hnew⟩
      · exact bind_eq_error_iff.mpr (.inr ⟨s₁, within_eq_ok_iff.mpr hput, hread⟩)

/-- **All entries**: those before some entry are read, and that one is at fault. -/
theorem readEntries_eq_error_iff {entries : List (Value × Value)}
    (ht : ∀ e ∈ entries, e.1.TagFree ∧ e.2.TagFree) {seen : List φ} {s : σ} {fault : Fault} :
    valueSource.readEntries N.all N.name put seen s entries = .error fault ↔
      ∃ before e after, entries = before ++ e :: after ∧
        (∃ s', valueSource.readEntries N.all N.name put seen s before = .ok s') ∧
        N.Offends faulty (fun f => f ∈ seen ∨ .string (N.name f) ∈ keys before) e fault := by
  induction entries generalizing seen s with
  | nil => simp [Source.readEntries]
  | cons e rest ih =>
      obtain ⟨⟨hkey, hvalue⟩, hrest⟩ := List.forall_mem_cons.mp ht
      -- what was named before an entry was named by the first or by one after it
      have hnamed : ∀ {f : φ} {before : List (Value × Value)}, e.1 = .string (N.name f) →
          (fun g => g ∈ f :: seen ∨ .string (N.name g) ∈ keys before) =
            fun g => g ∈ seen ∨ .string (N.name g) ∈ keys (e :: before) := by
        intro f before hname
        funext g
        rw [keys, keys, List.map_cons, List.mem_cons, List.mem_cons, hname, Value.string.injEq,
          N.name_injective.eq_iff, ← or_assoc, or_comm (a := g = f)]
      refine (readEntries_cons_eq_error_iff N hfaulty hkey hvalue).trans ?_
      constructor
      · rintro (hoffends | ⟨f, s₁, hname, hnew, hput, hread⟩)
        · exact ⟨[], e, rest, rfl, ⟨s, rfl⟩, by simpa [keys] using hoffends⟩
        · obtain ⟨before, e', after, rfl, ⟨s', hbefore⟩, hoffends⟩ := (ih hrest).mp hread
          rw [hnamed hname] at hoffends
          have htext : valueSource.text .key e.1 = .ok (N.name f) := by
            rw [hname]
            rfl
          refine ⟨e :: before, e', after, rfl, ⟨s', ?_⟩, hoffends⟩
          rw [readEntries_cons N htext hnew hput, hbefore]
      · rintro ⟨before, e', after, hsplit, ⟨s', hbefore⟩, hoffends⟩
        cases before with
        | nil =>
            obtain ⟨rfl, rfl⟩ := List.cons.inj hsplit
            exact .inl (by simpa [keys] using hoffends)
        | cons e₀ before =>
            obtain ⟨rfl, htail⟩ := List.cons.inj hsplit
            obtain ⟨f, s₁, hname, hnew, hput, hread⟩ := exists_of_readEntries_cons N hbefore
            rw [text_eq_ok_iff, hkey.untag] at hname
            rw [← hnamed hname] at hoffends
            exact .inr ⟨f, s₁, hname, hnew, hput,
              (ih hrest).mpr ⟨before, e', after, htail, ⟨s', hread⟩, hoffends⟩⟩

end Faulty

/-- **A value is refused with the fault of its first entry at fault.** -/
theorem Settings.read_eq_error_iff {S : Settings φ σ}
    (hsuits : ∀ {f v} s, v.TagFree → ((∃ s', S.put valueSource f v s = .ok s') ↔ suits f v))
    (hfaulty : ∀ {f v} s {fault}, v.TagFree →
      (S.put valueSource f v s = .error fault ↔ faulty f v fault))
    {v : Value} (ht : v.TagFree) {fault : Fault} :
    S.read valueSource v = .error fault ↔ S.naming.Refuses S.expected suits faulty v fault := by
  rw [Settings.read, bind_eq_error_iff, entries_eq_error_iff ht]
  constructor
  · rintro (⟨hnull, hmapping, rfl⟩ | ⟨entries, hentries, hread⟩)
    · exact .kind hnull hmapping
    · rw [entries_eq_ok_iff, ht.untag] at hentries
      rcases hentries with rfl | ⟨rfl, rfl⟩
      · have hparts := (Value.everywhere_mapping.mp ht).2
        obtain ⟨before, e, after, rfl, hbefore, hoffends⟩ :=
          (readEntries_eq_error_iff S.naming hfaulty hparts).mp hread
        have hform := (exists_readEntries_iff hsuits (fun e he => hparts e (by simp [he])) S.start).mp
          hbefore
        exact .entry hform (by simpa using hoffends)
      · cases hread
  · rintro (⟨hnull, hmapping⟩ | ⟨hform, hoffends⟩)
    · exact .inl ⟨hnull, hmapping, rfl⟩
    · have hparts := (Value.everywhere_mapping.mp ht).2
      refine .inr ⟨_, rfl, (readEntries_eq_error_iff S.naming hfaulty hparts).mpr ?_⟩
      have hbefore := (exists_readEntries_iff hsuits (fun e he => hparts e (by simp [he])) S.start).mpr
        hform
      exact ⟨_, _, _, rfl, hbefore, by simpa using hoffends⟩

end Entries

/-! ## The two levels -/

theorem bind_pure_eq_error_iff {ε α β : Type} {r : Except ε α} {g : α → β} {e : ε} :
    (r >>= fun a => pure (g a)) = .error e ↔ r = .error e := by
  rw [bind_eq_error_iff, or_iff_left]
  rintro ⟨a, -, h⟩
  cases h

section Levels

variable {v : Value} (ht : v.TagFree) {fault : Fault}

include ht

theorem putDownstream_eq_error_iff {f : DownstreamField} (d : Downstream) :
    valueSource.putDownstream f v d = .error fault ↔ f.Faulty v fault := by
  cases f with
  | program => exact bind_pure_eq_error_iff.trans (text_eq_error_iff ht)
  | extraArgs => exact bind_pure_eq_error_iff.trans (texts_eq_error_iff ht)
  | useNm | noDhcpFallback | debug => exact bind_pure_eq_error_iff.trans (boolean_eq_error_iff ht)

theorem readDownstream_eq_error_iff :
    valueSource.readDownstream v = .error fault ↔
      DownstreamField.naming.Refuses .downstream DownstreamField.Suits DownstreamField.Faulty v fault :=
  Settings.downstream.read_eq_error_iff exists_putDownstream_iff
    (fun d _ hv => putDownstream_eq_error_iff hv d) ht

theorem putField_eq_error_iff {f : Field} (c : Config) :
    valueSource.putField f v c = .error fault ↔ f.Faulty v fault := by
  cases f with
  | searchPath => exact bind_pure_eq_error_iff.trans (texts_eq_error_iff ht)
  | downstream => exact bind_pure_eq_error_iff.trans (readDownstream_eq_error_iff ht)
  | mountPoint | blkid | mount => exact bind_pure_eq_error_iff.trans (text_eq_error_iff ht)

/-- **A value without tags is refused with the fault of its first entry at fault.** -/
theorem ofValue_eq_error_iff :
    ofValue v = .error fault ↔ Field.naming.Refuses .config Field.Suits Field.Faulty v fault :=
  Settings.run.read_eq_error_iff exists_putField_iff (fun c _ hv => putField_eq_error_iff hv c) ht

end Levels

/-! ## All values -/

/-- **What a value gives, exactly.**  It gives a configuration if and only if it is, without its tags, null or
a mapping of settings in good form, and the settings for the tool are so again.  Each setting is then what
is found at its path, and the default where nothing is; another order of the entries gives the same.  If a
value gives none, then its fault is that of the first entry at fault. -/
theorem ofValue_follows_grammar (v : Value) :
    ((∃ c, ofValue v = .ok c) ↔ Field.naming.Accepts Field.Suits v.eraseTags) ∧
      (∀ c, ofValue v = .ok c →
        (∀ leaf : Leaf, leaf.value c = filled (leaf.value default) (v.eraseTags.at? leaf.path)) ∧
          ∀ w, Rearranged v.eraseTags w.eraseTags → ofValue w = .ok c) ∧
      ∀ fault, ofValue v = .error fault ↔
        Field.naming.Refuses .config Field.Suits Field.Faulty v.eraseTags fault := by
  have ht := v.tagFree_eraseTags
  refine ⟨?accepted, fun c hread => ⟨?given, fun w hw => ?order⟩, fun fault => ?refused⟩
  case accepted => rw [← exists_ofValue_iff ht, ofValue_eraseTags]
  case given =>
    rw [← ofValue_eraseTags] at hread
    exact ((ofValue_eq_ok_iff ht).mp hread).2
  case order =>
    rw [← ofValue_eraseTags] at hread ⊢
    exact hw.ofValue_eq_ok ht hread
  case refused => rw [← ofValue_eq_error_iff ht, ofValue_eraseTags]

/-- Settings with tags on keys, on values and on the whole, and with a list that is null. -/
def sampleTagged : Value :=
  .tagged ⟨"c"⟩ (.mapping [
    (.tagged ⟨"k"⟩ (.string "downstream"), .tagged ⟨"t"⟩ (.mapping [
      (.string "debug", .tagged ⟨"b"⟩ (.bool true)), (.string "extra_args", .null)])),
    (.string "search_path", .sequence [.string "/bin"])])

/-- The same settings in another order. -/
def sampleReversed : Value :=
  .mapping [(.string "search_path", .sequence [.string "/bin"]),
    (.string "downstream", .mapping [(.string "debug", .bool true), (.string "extra_args", .null)])]

/-- One key in two spellings, and after that a list with an item that is no text. -/
def sampleTwice : Value :=
  .mapping [(.string "blkid", .string "a"), (.tagged ⟨"k"⟩ (.string "blkid"), .string "b"),
    (.string "search_path", .sequence [.int 1])]

/-- The samples in the grammar: settings in two orders, and a key that comes again. -/
theorem sampleTagged_accepted :
    Field.naming.Accepts Field.Suits sampleTagged.eraseTags ∧
      ofValue sampleReversed =
        .ok { searchPath := ["/bin"], downstream := { debug := true } } ∧
      Field.naming.Refuses .config Field.Suits Field.Faulty sampleTwice.eraseTags
        (.here (.duplicateField "blkid")) := by
  have hread : ofValue sampleTagged =
      .ok { searchPath := ["/bin"], downstream := { debug := true } } := rfl
  obtain ⟨haccepts, hgiven, -⟩ := ofValue_follows_grammar sampleTagged
  have hreversed : Rearranged sampleTagged.eraseTags sampleReversed.eraseTags :=
    .run (List.Perm.swap _ _ _)
  exact ⟨haccepts.mp ⟨_, hread⟩, (hgiven _ hread).2 _ hreversed,
    ((ofValue_follows_grammar sampleTwice).2.2 _).mp rfl⟩

end ConfigDrive.Config
