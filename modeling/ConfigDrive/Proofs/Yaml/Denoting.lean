/-
# ConfigDrive.Proofs.Yaml.Denoting — which values the nodes of a document denote.

The reader of values counts: it follows a reference only while the budget lasts, and enters a collection
only down to a depth.  `Document.Denotes` is the relation behind it, with a rule for each kind of node and
nothing counted.  Whatever the reader returns for a node is a value that the node denotes
(`Document.gives_denotes`), so a statement about the value of a node can be proved by cases on the rules.
-/
import ConfigDrive.Proofs.Yaml.OfText
import Mathlib.Data.List.Forall2

namespace ConfigDrive.Yaml

/-! ## Denotation -/

namespace Document

mutual

/-- A node of the document denotes a value. -/
inductive Denotes (d : Document) : Node → Value → Prop
  | scalar {tag : Option TagText} {style : ScalarStyle} {text : String} {v : Value}
      (value : scalarValue tag style text = .ok v) :
      Denotes d (.scalar tag style text) (tagValue tag v)
  | sequence {tag : Option TagText} {items : List Node} {vs : List Value}
      (parts : List.Forall₂ (Denotes d) items vs) :
      Denotes d (.sequence tag items) (tagValue tag (.sequence vs))
  | mapping {tag : Option TagText} {entries : List (Node × Node)} {es : List (Value × Value)}
      (parts : List.Forall₂ (DenotesEntry d) entries es) :
      Denotes d (.mapping tag entries) (tagValue tag (.mapping es))
  | reference {number : Nat} {n : Node} {v : Value} (target : d.anchored? number = some n)
      (value : Denotes d n v) :
      Denotes d (.reference number) v

/-- Key and value of an entry denote those of another. -/
inductive DenotesEntry (d : Document) : Node × Node → Value × Value → Prop
  | mk {k n : Node} {key v : Value} (ofKey : Denotes d k key) (ofValue : Denotes d n v) :
      DenotesEntry d (k, n) (key, v)

end

end Document

/-! ## The reader returns what nodes denote -/

namespace Gives

variable {α β : Type} {R : α → β → Prop}

theorem mapM_forall₂ {f : α → ReadM β} {l : List α} (hf : ∀ a ∈ l, Gives (f a) (R a)) :
    Gives (l.mapM f) (List.Forall₂ R l) := by
  induction l with
  | nil =>
      rw [List.mapM_nil]
      exact pure .nil
  | cons a as ih =>
      rw [List.mapM_cons]
      refine bind (hf a (by simp)) fun b hb => ?_
      refine bind (ih fun a' ha' => hf a' (List.mem_cons_of_mem _ ha')) fun bs hbs => ?_
      exact pure (.cons hb hbs)

/-- Steps that each append one result append related results. -/
theorem foldlM_forall₂ {f : List β → α → ReadM (List β)} {l : List α} (acc : List β)
    (hf : ∀ a ∈ l, ∀ acc, Gives (f acc a) fun bs => ∃ b, bs = acc ++ [b] ∧ R a b) :
    Gives (l.foldlM f acc) fun bs => ∃ added, bs = acc ++ added ∧ List.Forall₂ R l added := by
  induction l generalizing acc with
  | nil => exact pure ⟨[], by rw [List.append_nil], .nil⟩
  | cons a as ih =>
      rw [List.foldlM_cons]
      refine bind (hf a (by simp) acc) ?_
      rintro _ ⟨b, rfl, hb⟩ s bs s' hrun
      have hrest := ih (acc ++ [b]) fun a' ha' => hf a' (List.mem_cons_of_mem _ ha')
      obtain ⟨added, rfl, hadded⟩ := hrest s bs s' hrun
      exact ⟨b :: added, by rw [List.append_assoc, List.singleton_append], .cons hb hadded⟩

end Gives

namespace Document

/-- A node denotes what the node denotes for which it stands. -/
theorem gives_denotes_follow (d : Document) (n : Node) :
    Gives (d.follow n) fun m => ∀ v, d.Denotes m v → d.Denotes n v := by
  intro s m s' hrun
  cases n with
  | scalar | sequence | mapping =>
      cases hrun
      exact fun v hv => hv
  | reference number =>
      cases s with
      | zero => cases hrun
      | succ budget =>
          cases htarget : d.anchored? number with
          | none =>
              simp only [follow, htarget] at hrun
              cases hrun
          | some target =>
              simp only [follow, htarget] at hrun
              cases hrun
              exact fun v hv => .reference htarget hv

theorem putNew_eq_ok {entries entries' : List (Value × Value)} {key value : Value}
    (h : putNew entries key value = .ok entries') : entries' = entries ++ [(key, value)] := by
  rw [putNew] at h
  split at h
  · cases h
  · cases h
    rfl

/-- **The reader returns what the node denotes.** -/
theorem gives_denotes (d : Document) (depth : Nat) (n : Node) :
    Gives (d.valueOf depth n) (d.Denotes n) := by
  -- the depth bounds the recursion into collections; only references and scalars are left at zero
  induction depth generalizing n with
  | zero =>
      rw [valueOf]
      refine (gives_denotes_follow d n).bind fun m hm => ?_
      cases m with
      | scalar tag style text =>
          refine (Gives.lift fun v h => h).bind fun v hv => ?_
          exact .pure (hm _ (.scalar hv))
      | sequence | mapping | reference => exact .throw _
  | succ depth ih =>
      rw [valueOf]
      refine (gives_denotes_follow d n).bind fun m hm => ?_
      cases m with
      | scalar tag style text =>
          refine (Gives.lift fun v h => h).bind fun v hv => ?_
          exact .pure (hm _ (.scalar hv))
      | sequence tag items =>
          refine (Gives.mapM_forall₂ fun n _ => ih n).bind fun vs hvs => ?_
          exact .pure (hm _ (.sequence hvs))
      | mapping tag entries =>
          refine (Gives.foldlM_forall₂ (R := d.DenotesEntry) [] ?_).bind ?_
          · rintro ⟨k, n⟩ - acc
            refine (ih k).bind fun key hkey => ?_
            refine (ih n).bind fun value hvalue => ?_
            exact .lift fun es hes => ⟨(key, value), putNew_eq_ok hes, .mk hkey hvalue⟩
          · rintro _ ⟨es, rfl, hes⟩
            exact .pure (hm _ (.mapping hes))
      | reference => exact .throw _

/-- The value of a document with a root is one that the root denotes. -/
theorem denotes_of_value {d : Document} {root : Node} {v : Value} (hroot : d.root = some root)
    (h : d.value = .ok v) : d.Denotes root v := by
  rw [value, hroot] at h
  dsimp only at h
  cases hrun : (d.valueOf depthLimit root).run d.budget with
  | error e =>
      rw [hrun] at h
      cases h
  | ok r =>
      rw [hrun] at h
      cases h
      exact d.gives_denotes _ root _ _ _ hrun

end Document

/-! ## What the nodes of each kind denote -/

theorem Value.untag_tagValue (tag : Option TagText) (v : Value) : (tagValue tag v).untag = v.untag := by
  rw [tagValue]
  cases tag.bind valueTag? <;> rfl

namespace Document.Denotes

variable {d : Document} {tag : Option TagText} {v : Value}

theorem scalarOf {style : ScalarStyle} {text : String} (h : d.Denotes (.scalar tag style text) v) :
    ScalarOf text v.untag := by
  cases h with
  | scalar value =>
      have hv := scalarOf_scalarValue value
      rw [Value.untag_tagValue]
      cases hv with
      | null => exact .null
      | bool word => exact .bool word
      | int n => exact .int n
      | float x => exact .float x
      | string => exact .string

theorem sequence_parts {items : List Node} (h : d.Denotes (.sequence tag items) v) :
    ∃ vs, v.untag = .sequence vs ∧ List.Forall₂ d.Denotes items vs := by
  cases h with
  | sequence parts => exact ⟨_, Value.untag_tagValue tag _, parts⟩

theorem mapping_parts {entries : List (Node × Node)} (h : d.Denotes (.mapping tag entries) v) :
    ∃ es, v.untag = .mapping es ∧ List.Forall₂ d.DenotesEntry entries es := by
  cases h with
  | mapping parts => exact ⟨_, Value.untag_tagValue tag _, parts⟩

end Document.Denotes

end ConfigDrive.Yaml
