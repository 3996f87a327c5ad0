/-
# ConfigDrive.Proofs.Yaml.OfText — what the reader of a text builds.

The reader refuses a mapping in which a key comes twice, wherever it stands in the document.  So the value
of a text repeats no key at any depth (`distinct_ofText`).  The proof goes along the reader, whose steps
are those of a state monad with failure: `Gives` says what holds of the result of such a step whenever it
has one.  What the value of a scalar can be, whatever its tag and its way of writing, is said once
(`scalarOf_scalarValue`).
-/
import ConfigDrive.Proofs.Yaml.Distinct

namespace ConfigDrive.Yaml

/-! ## Steps of the reader -/

/-- Whatever a step of the reader results in has a property. -/
def Gives {α : Type} (x : ReadM α) (P : α → Prop) : Prop :=
  ∀ s a s', x.run s = .ok (a, s') → P a

namespace Gives

variable {α β : Type} {P : α → Prop} {Q : β → Prop}

theorem pure {a : α} (h : P a) : Gives (pure a) P := by
  intro s b s' hrun
  cases hrun
  exact h

theorem throw (e : ReadError) : Gives (throw e : ReadM α) P := by
  intro s a s' hrun
  cases hrun

theorem lift {r : Except ReadError α} (h : ∀ a, r = .ok a → P a) :
    Gives (liftM r : ReadM α) P := by
  intro s a s' hrun
  cases r with
  | error e => cases hrun
  | ok b =>
      cases hrun
      exact h a rfl

theorem bind {x : ReadM α} {f : α → ReadM β} (hx : Gives x P) (hf : ∀ a, P a → Gives (f a) Q) :
    Gives (x >>= f) Q := by
  intro s b s' hrun
  rw [StateT.run_bind] at hrun
  cases hx' : x.run s with
  | error e =>
      rw [hx'] at hrun
      cases hrun
  | ok r =>
      obtain ⟨a, t⟩ := r
      rw [hx'] at hrun
      exact hf a (hx s a t hx') t b s' hrun

theorem mapM {f : α → ReadM β} {l : List α} (hf : ∀ a ∈ l, Gives (f a) Q) :
    Gives (l.mapM f) fun bs => ∀ b ∈ bs, Q b := by
  induction l with
  | nil =>
      rw [List.mapM_nil]
      exact pure (by simp)
  | cons a as ih =>
      rw [List.mapM_cons]
      refine bind (hf a (by simp)) fun b hb => ?_
      refine bind (ih fun a' ha' => hf a' (List.mem_cons_of_mem _ ha')) fun bs hbs => ?_
      exact pure (List.forall_mem_cons.mpr ⟨hb, hbs⟩)

theorem foldlM {f : β → α → ReadM β} {l : List α} {b : β} (hb : Q b)
    (hf : ∀ a ∈ l, ∀ b, Q b → Gives (f b a) Q) : Gives (l.foldlM f b) Q := by
  induction l generalizing b with
  | nil => exact pure hb
  | cons a as ih =>
      rw [List.foldlM_cons]
      exact bind (hf a (by simp) b hb) fun c hc =>
        ih hc fun a' ha' => hf a' (List.mem_cons_of_mem _ ha')

end Gives

/-! ## Scalars -/

theorem fitted_eq_ok {o : Option Value} {v : Value} (h : fitted o = .ok v) : o = some v := by
  cases o with
  | none => cases h
  | some w =>
      cases h
      rfl

/-- What the value of a scalar with this text can be: a string is the text as it is written, and a truth
value is the one that the text stands for as a word. -/
inductive ScalarOf (text : String) : Value → Prop
  | null : ScalarOf text .null
  | bool {b : Bool} (word : Plain.bool? text = some b) : ScalarOf text (.bool b)
  | int (n : Int) : ScalarOf text (.int n)
  | float (x : Decimal.Binary64) : ScalarOf text (.float x)
  | string : ScalarOf text (.string text)

theorem Plain.scalarOf_value {text : String} {v : Value} (h : Plain.value text = .ok v) :
    ScalarOf text v := by
  rw [Plain.value] at h
  split at h
  · cases h
    exact .null
  · cases hbool : Plain.bool? text with
    | some b =>
        rw [hbool] at h
        cases h
        exact .bool hbool
    | none =>
        rw [hbool] at h
        dsimp only at h
        cases hword : Plain.word? text.toList with
        | error e =>
            rw [hword] at h
            cases h
        | ok n? =>
            rw [hword] at h
            cases n? with
            | some n =>
                cases h
                exact .int n
            | none =>
                simp only [bind, Except.bind] at h
                split at h
                · cases h
                  exact .float _
                · cases h
                  exact .string

/-- **The value of a scalar** is its text as it is written, the truth value of that word, or neither a
text nor a truth value; and it is no collection. -/
theorem scalarOf_scalarValue {tag : Option TagText} {style : ScalarStyle} {text : String} {v : Value}
    (h : scalarValue tag style text = .ok v) : ScalarOf text v := by
  cases tag with
  | none =>
      rw [scalarValue] at h
      split at h
      · exact Plain.scalarOf_value h
      · cases h
        exact .string
  | some tag =>
      simp only [scalarValue] at h
      -- the branches are the conversions that tags ask for, in their order
      split at h
      · obtain ⟨b, hb, rfl⟩ := Option.map_eq_some_iff.mp (fitted_eq_ok h)
        exact .bool hb
      · split at h
        · cases hword : Plain.word? text.toList with
          | error e =>
              rw [hword] at h
              cases h
          | ok n? =>
              rw [hword] at h
              obtain ⟨n, -, rfl⟩ := Option.map_eq_some_iff.mp (fitted_eq_ok h)
              exact .int n
        · split at h
          · obtain ⟨x, -, rfl⟩ := Option.map_eq_some_iff.mp (fitted_eq_ok h)
            exact .float x
          · split at h
            · split at h
              · cases fitted_eq_ok h
                exact .null
              · cases h
            · split at h
              · exact Plain.scalarOf_value h
              · cases h
                exact .string

theorem ScalarOf.distinct {text : String} {v : Value} (h : ScalarOf text v) : v.Distinct := by
  cases h <;> trivial

theorem distinct_tagValue {tag : Option TagText} {v : Value} (h : v.Distinct) :
    (tagValue tag v).Distinct := by
  rw [tagValue]
  cases tag.bind valueTag? with
  | none => exact h
  | some t => exact Value.distinct_tagged.mpr h

/-! ## Documents -/

/-- The entries of a mapping that is being read. -/
def EntriesDistinct (entries : List (Value × Value)) : Prop :=
  (Value.mapping entries).Distinct

namespace Document

/-- A key that is stored is not the same as any before it. -/
theorem entriesDistinct_putNew {entries entries' : List (Value × Value)} {key value : Value}
    (hentries : EntriesDistinct entries) (hkey : key.Distinct) (hvalue : value.Distinct)
    (h : putNew entries key value = .ok entries') : EntriesDistinct entries' := by
  obtain ⟨hdist, hparts⟩ := Value.distinct_mapping.mp hentries
  rw [putNew] at h
  split at h
  · cases h
  · next hget =>
      cases h
      rw [Bool.not_eq_true, Option.isSome_eq_false_iff, Option.isNone_iff_eq_none,
        Entries.get?_eq_none_iff] at hget
      refine Value.distinct_mapping.mpr ⟨?_, ?_⟩
      · rw [Entries.distinct_iff_pairwise, List.pairwise_append]
        refine ⟨Entries.distinct_iff_pairwise.mp hdist, List.pairwise_singleton _ _, ?_⟩
        -- the look-up asks from the side of the new key, distinctness from that of the old ones
        intro e he f hf
        rw [List.mem_singleton.mp hf, ← Bool.not_eq_true]
        intro hsame
        have hback := (hparts e he).1.same_symm hkey hsame
        rw [hget e he] at hback
        exact Bool.false_ne_true hback
      · intro e he
        rcases List.mem_append.mp he with he | he
        · exact hparts e he
        · rw [List.mem_singleton.mp he]
          exact ⟨hkey, hvalue⟩

theorem gives_follow (d : Document) (n : Node) : Gives (d.follow n) fun _ => True :=
  fun _ _ _ _ => trivial

theorem gives_valueOf (d : Document) (depth : Nat) (n : Node) :
    Gives (d.valueOf depth n) Value.Distinct := by
  -- the depth bounds the recursion into collections; only references and scalars are left at zero
  induction depth generalizing n with
  | zero =>
      rw [valueOf]
      refine (gives_follow d n).bind fun m _ => ?_
      cases m with
      | scalar tag style text =>
          refine (Gives.lift fun v h => (scalarOf_scalarValue h).distinct).bind fun v hv => ?_
          exact .pure (distinct_tagValue hv)
      | sequence | mapping | reference => exact .throw _
  | succ depth ih =>
      rw [valueOf]
      refine (gives_follow d n).bind fun m _ => ?_
      cases m with
      | scalar tag style text =>
          refine (Gives.lift fun v h => (scalarOf_scalarValue h).distinct).bind fun v hv => ?_
          exact .pure (distinct_tagValue hv)
      | sequence tag items =>
          refine (Gives.mapM fun n _ => ih n).bind fun vs hvs => ?_
          exact .pure (distinct_tagValue (Value.distinct_sequence.mpr hvs))
      | mapping tag entries =>
          have hempty : EntriesDistinct [] :=
            Value.distinct_mapping.mpr ⟨trivial, fun e he => absurd he List.not_mem_nil⟩
          refine (Gives.foldlM hempty ?_).bind fun es hes => ?_
          · rintro ⟨k, v⟩ - acc hacc
            refine (ih k).bind fun key hkey => ?_
            refine (ih v).bind fun value hvalue => ?_
            exact .lift fun es hes => entriesDistinct_putNew hacc hkey hvalue hes
          · exact .pure (distinct_tagValue hes)
      | reference => exact .throw _

/-- The value of a document repeats no key. -/
theorem distinct_value {d : Document} {v : Value} (h : d.value = .ok v) : v.Distinct := by
  rw [value] at h
  cases hroot : d.root with
  | none =>
      rw [hroot] at h
      cases h
      trivial
  | some root =>
      rw [hroot] at h
      dsimp only at h
      cases hrun : (d.valueOf depthLimit root).run d.budget with
      | error e =>
          rw [hrun] at h
          cases h
      | ok r =>
          rw [hrun] at h
          cases h
          exact d.gives_valueOf _ root _ _ _ hrun

end Document

/-- The value of a text is that of its document. -/
theorem exists_document_of_ofText {text : String} {v : Value} (h : Value.ofText text = .ok v) :
    ∃ d, Document.ofText text.toList = .ok d ∧ d.value = .ok v := by
  rw [Value.ofText] at h
  cases hdoc : Document.ofText text.toList with
  | error e =>
      rw [hdoc] at h
      cases h
  | ok d =>
      rw [hdoc] at h
      exact ⟨d, rfl, h⟩

/-- The value of a text repeats no key. -/
theorem distinct_ofText {text : String} {v : Value} (h : Value.ofText text = .ok v) :
    v.Distinct := by
  obtain ⟨d, -, hv⟩ := exists_document_of_ofText h
  exact Document.distinct_value hv

end ConfigDrive.Yaml
