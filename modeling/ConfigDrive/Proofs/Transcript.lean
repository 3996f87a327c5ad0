/-
# ConfigDrive.Proofs.Transcript — how far answers take a procedure.

When several procedures share a host, each waits at a question until it is its turn.  How far one of them
has come is known from its **transcript**, the questions that were answered to it so far with their
answers: `follow` takes a procedure along a transcript, to the question it waits at or to its result.

What a procedure does may rest on what it was told before.  A **contract** says which questions may be
asked, which answers may be given to them, and what is remembered of an answer.  `Contract.Meets` is shown
part by part, with `Meets.bind` going on from any result of the first part, and what it says holds
wherever a lawful transcript leads (`Meets.follow`).
-/
import ConfigDrive.Proofs.Account

namespace ConfigDrive

/-! ## Transcripts -/

/-- Questions and the answers that were given to them, in order. -/
abbrev Transcript (Q : Type) (A : Q → Type) : Type :=
  List ((q : Q) × A q)

/-- Where a transcript leads: to a result, with the answers that were not needed for it, or to a question
that has no answer yet; or it answers a question that was not asked. -/
inductive Progress (Q : Type) (A : Q → Type) (α : Type) : Type
  | ended (result : α) (unused : Transcript Q A)
  | waiting (question : Q) (next : A question → Procedure Q A α)
  | astray

namespace Progress

variable {Q : Type} {A : Q → Type} {α : Type}

/-- The result, if there is one yet. -/
def result? : Progress Q A α → Option α
  | ended a _ => some a
  | _ => none

/-- The question that is waited at. -/
def question? : Progress Q A α → Option Q
  | waiting q _ => some q
  | _ => none

theorem result?_eq_some_iff {w : Progress Q A α} {a : α} :
    w.result? = some a ↔ ∃ unused, w = ended a unused := by
  cases w <;> simp [result?]

theorem question?_eq_some_iff {w : Progress Q A α} {q : Q} :
    w.question? = some q ↔ ∃ next, w = waiting q next := by
  cases w with
  | waiting q' next =>
      constructor
      · rintro ⟨⟩
        exact ⟨next, rfl⟩
      · rintro ⟨_, h⟩
        cases h
        rfl
  | _ => simp [question?]

end Progress

namespace Procedure

variable {Q : Type} {A : Q → Type} [DecidableEq Q] {α β : Type}

/-- Where a transcript leads a procedure.  Lines of the log are passed over. -/
def follow : Procedure Q A α → Transcript Q A → Progress Q A α
  | done a, as => .ended a as
  | report _ next, as => next.follow as
  | ask q next, [] => .waiting q next
  | ask q next, ⟨q', a⟩ :: as => if h : q' = q then (next (h ▸ a)).follow as else .astray

/-- Answers after the result are not needed for it. -/
theorem follow_append_of_ended {p : Procedure Q A α} {as : Transcript Q A} {a : α}
    {unused : Transcript Q A} (h : p.follow as = .ended a unused) (as' : Transcript Q A) :
    p.follow (as ++ as') = .ended a (unused ++ as') := by
  induction p generalizing as with
  | done b =>
      cases h
      rfl
  | report line next ih => exact ih h
  | ask q next ih =>
      cases as with
      | nil => cases h
      | cons e as =>
          obtain ⟨q', b⟩ := e
          rw [follow] at h
          rw [List.cons_append, follow]
          split at h
          · next heq =>
              rw [dif_pos heq]
              exact ih _ h
          · cases h

/-- **Going on is following one part after the other.** -/
theorem follow_bind (p : Procedure Q A α) (f : α → Procedure Q A β) (as : Transcript Q A) :
    (p >>= f).follow as =
      match p.follow as with
      | .ended a unused => (f a).follow unused
      | .waiting q next => .waiting q fun a => next a >>= f
      | .astray => .astray := by
  induction p generalizing as with
  | done a => rfl
  | report line next ih => exact ih as
  | ask q next ih =>
      cases as with
      | nil => rfl
      | cons e as =>
          obtain ⟨q', a⟩ := e
          show follow (.ask q fun a => next a >>= f) _ = _
          rw [follow, follow]
          split
          · exact ih _ as
          · rfl

/-- A question that is waited at is one that may be asked. -/
theorem AsksOnly.of_waiting {P : Q → Prop} {p : Procedure Q A α} (h : p.AsksOnly P)
    {as : Transcript Q A} {q : Q} {next : A q → Procedure Q A α} (hw : p.follow as = .waiting q next) :
    P q := by
  induction p generalizing as with
  | done b => cases hw
  | report line next' ih => exact ih h hw
  | ask q' next' ih =>
      cases as with
      | nil =>
          cases hw
          exact h.1
      | cons e as =>
          rw [follow] at hw
          split at hw
          · exact ih _ (h.2 _) hw
          · cases hw

end Procedure

/-! ## Contracts -/

/-- What is agreed between a procedure and its host: the questions that may be asked, the answers that
may be given to them, and what is remembered of an answer. -/
structure Contract (Q : Type) (A : Q → Type) (σ : Type) where
  allows : σ → Q → Prop
  grants : σ → (q : Q) → A q → Prop
  after : σ → (q : Q) → A q → σ

namespace Contract

variable {Q : Type} {A : Q → Type} {σ α β : Type} (K : Contract Q A σ)

/-- A procedure keeps to its part of the contract, as long as the host does, and has only `R`-results. -/
def Meets (R : σ → α → Prop) : σ → Procedure Q A α → Prop
  | s, .done a => R s a
  | s, .report _ next => Meets R s next
  | s, .ask q next => K.allows s q ∧ ∀ a, K.grants s q a → Meets R (K.after s q a) (next a)

/-- The host kept to its part of the contract. -/
def Lawful : σ → Transcript Q A → Prop
  | _, [] => True
  | s, ⟨q, a⟩ :: as => K.grants s q a ∧ Lawful (K.after s q a) as

/-- What is remembered of a transcript. -/
def memory : σ → Transcript Q A → σ
  | s, [] => s
  | s, ⟨q, a⟩ :: as => memory (K.after s q a) as

variable {K} {R : σ → α → Prop} {S : σ → β → Prop} {s : σ} {p : Procedure Q A α} {as : Transcript Q A}

theorem memory_append_singleton (s : σ) (as : Transcript Q A) (q : Q) (a : A q) :
    K.memory s (as ++ [⟨q, a⟩]) = K.after (K.memory s as) q a := by
  induction as generalizing s with
  | nil => rfl
  | cons e as ih => exact ih _

theorem lawful_append_singleton {q : Q} {a : A q} :
    K.Lawful s (as ++ [⟨q, a⟩]) ↔ K.Lawful s as ∧ K.grants (K.memory s as) q a := by
  induction as generalizing s with
  | nil => exact and_comm
  | cons e as ih =>
      rw [List.cons_append, Lawful, Lawful, ih, memory, and_assoc]

namespace Meets

theorem bind {f : α → Procedure Q A β} (h : K.Meets R s p) (h' : ∀ s a, R s a → K.Meets S s (f a)) :
    K.Meets S s (p >>= f) := by
  induction p generalizing s with
  | done a => exact h' s a h
  | report line next ih => exact ih h
  | ask q next ih => exact ⟨h.1, fun a ha => ih a (h.2 a ha)⟩

variable [DecidableEq Q]

/-- **Wherever a lawful transcript leads, the contract holds.**  At a question it is one that may be
asked, and at a result this is an `R`-result of what was remembered before the unused answers. -/
theorem follow (h : K.Meets R s p) (hl : K.Lawful s as) :
    match p.follow as with
    | .ended a unused =>
      ∃ s', R s' a ∧ K.Lawful s' unused ∧ K.memory s' unused = K.memory s as
    | .waiting q _ => K.allows (K.memory s as) q
    | .astray => True := by
  induction p generalizing s as with
  | done a => exact ⟨s, h, hl, rfl⟩
  | report line next ih => exact ih h hl
  | ask q next ih =>
      cases as with
      | nil => exact h.1
      | cons e as =>
          obtain ⟨q', a⟩ := e
          obtain ⟨ha, hl'⟩ := hl
          rw [Procedure.follow]
          by_cases heq : q' = q
          · subst heq
            rw [dif_pos rfl]
            exact ih a (h.2 a ha) hl'
          · rw [dif_neg heq]
            exact trivial

theorem of_waiting (h : K.Meets R s p) (hl : K.Lawful s as) {q : Q} {next : A q → Procedure Q A α}
    (hw : p.follow as = .waiting q next) : K.allows (K.memory s as) q := by
  have hfollow := h.follow hl
  rw [hw] at hfollow
  exact hfollow

theorem of_ended (h : K.Meets R s p) (hl : K.Lawful s as) {a : α} {unused : Transcript Q A}
    (hw : p.follow as = .ended a unused) :
    ∃ s', R s' a ∧ K.Lawful s' unused ∧ K.memory s' unused = K.memory s as := by
  have hfollow := h.follow hl
  rw [hw] at hfollow
  exact hfollow

end Meets

end Contract

end ConfigDrive
