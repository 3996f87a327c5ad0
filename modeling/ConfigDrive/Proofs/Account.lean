/-
# ConfigDrive.Proofs.Account — what a procedure asks and reports.

A procedure leaves its answers to whoever runs it.  Here they come from a state: `reply` answers a
question in a state and gives the state after it, or ends the process.  The **account** of a procedure is
then all that can be seen of it: every line that it reports and every question that it asks, in their
order and each question with the state in which it was asked, and how it ended.

Accounts are put together as procedures are (`account_bind`).  What holds of every question that a
procedure may ever ask holds of every question in its account (`AsksOnly.of_mem_moments`).
-/
import ConfigDrive.Procedure

namespace ConfigDrive

/-- What happens in a procedure: a line is reported, or a question is asked in some state. -/
inductive Event (σ Q : Type)
  | said (line : Log.Line)
  | asked (state : σ) (question : Q)

/-- What comes of a procedure: the events in their order, the result, and the state after it. -/
structure Account (σ Q ε α : Type) where
  events : List (Event σ Q)
  result : Except ε α
  state : σ

section

variable {σ Q ε α : Type}

/-- The line that is reported. -/
def Event.line? : Event σ Q → Option Log.Line
  | .said line => some line
  | .asked _ _ => none

/-- The question that is asked, with the state in which it is. -/
def Event.moment? : Event σ Q → Option (σ × Q)
  | .said _ => none
  | .asked s q => some (s, q)

/-- The lines that are reported. -/
def Account.log (a : Account σ Q ε α) : List Log.Line :=
  a.events.filterMap Event.line?

/-- The questions that are asked, each with the state in which it is. -/
def Account.moments (a : Account σ Q ε α) : List (σ × Q) :=
  a.events.filterMap Event.moment?

/-- The questions that are asked. -/
def Account.questions (a : Account σ Q ε α) : List Q :=
  a.moments.map Prod.snd

end

namespace Procedure

variable {Q : Type} {A : Q → Type} {σ ε α β : Type}

section

variable (reply : (q : Q) → σ → Except ε (A q) × σ)

/-- The account of a procedure that is answered from a state. -/
def account : Procedure Q A α → σ → Account σ Q ε α
  | done a, s => ⟨[], .ok a, s⟩
  | report line next, s =>
    let rest := account next s
    { rest with events := .said line :: rest.events }
  | ask q next, s =>
    match reply q s with
    | (.error e, s') => ⟨[.asked s q], .error e, s'⟩
    | (.ok a, s') =>
      let rest := account (next a) s'
      { rest with events := .asked s q :: rest.events }

/-- **Going on is one account after the other**, unless the process ended. -/
theorem account_bind (p : Procedure Q A α) (f : α → Procedure Q A β) (s : σ) :
    account reply (p >>= f) s =
      match (account reply p s).result with
      | .error e => ⟨(account reply p s).events, .error e, (account reply p s).state⟩
      | .ok a =>
        let rest := account reply (f a) (account reply p s).state
        { rest with events := (account reply p s).events ++ rest.events } := by
  induction p generalizing s with
  | done a => rfl
  | report line next ih =>
      show account reply (.report line (next >>= f)) s = _
      rw [account, account, ih s]
      dsimp only
      cases (account reply next s).result with
      | error e => rfl
      | ok a => rfl
  | ask q next ih =>
      show account reply (.ask q fun a => next a >>= f) s = _
      rw [account, account]
      -- a process that ends at this question has neither part's rest
      rcases reply q s with ⟨_ | a, s'⟩
      · rfl
      · dsimp only
        rw [ih a s']
        cases (account reply (next a) s').result with
        | error e => rfl
        | ok b => rfl

theorem account_pure (a : α) (s : σ) :
    account reply (pure a : Procedure Q A α) s = ⟨[], .ok a, s⟩ :=
  rfl

theorem account_question (q : Q) (s : σ) :
    account reply (question q : Procedure Q A (A q)) s =
      ⟨[.asked s q], (reply q s).1, (reply q s).2⟩ := by
  rw [question, account]
  rcases reply q s with ⟨_ | a, s'⟩ <;> rfl

/-- A first part with a result, and what goes on from it. -/
theorem account_bind_ok {p : Procedure Q A α} {f : α → Procedure Q A β} {s s' : σ}
    {es : List (Event σ Q)} {a : α} (h : account reply p s = ⟨es, .ok a, s'⟩) :
    account reply (p >>= f) s =
      { account reply (f a) s' with events := es ++ (account reply (f a) s').events } := by
  rw [account_bind, h]

variable {η : Type} {x : ExceptT η (Procedure Q A) α} {f : α → ExceptT η (Procedure Q A) β}
  {s s' : σ} {es : List (Event σ Q)}

/-- The same for parts that may give up: the rest follows a part that did not. -/
theorem account_bindE_ok {a : α} (h : account reply x.run s = ⟨es, .ok (.ok a), s'⟩) :
    account reply (x >>= f).run s =
      { account reply (f a).run s' with events := es ++ (account reply (f a).run s').events } :=
  account_bind_ok reply h

/-- A part that gave up is all there is. -/
theorem account_bindE_error {e : η} (h : account reply x.run s = ⟨es, .ok (.error e), s'⟩) :
    account reply (x >>= f).run s = ⟨es, .ok (.error e), s'⟩ := by
  have hbind : account reply (x >>= f).run s =
      { account reply (pure (.error e) : Procedure Q A (Except η β)) s' with
        events := es ++ [] } := account_bind_ok reply h
  rw [hbind, account_pure, List.append_nil]

end

/-! ## Questions of one kind -/

/-- Whatever it is answered, the procedure asks only such questions. -/
def AsksOnly (P : Q → Prop) : Procedure Q A α → Prop
  | done _ => True
  | report _ next => AsksOnly P next
  | ask q next => P q ∧ ∀ a, AsksOnly P (next a)

variable {P : Q → Prop}

theorem AsksOnly.question {q : Q} (h : P q) :
    AsksOnly P (Procedure.question q : Procedure Q A (A q)) :=
  ⟨h, fun _ => trivial⟩

theorem AsksOnly.bind {p : Procedure Q A α} {f : α → Procedure Q A β} (h : AsksOnly P p)
    (h' : ∀ a, AsksOnly P (f a)) : AsksOnly P (p >>= f) := by
  induction p with
  | done a => exact h' a
  | report line next ih => exact ih h
  | ask q next ih => exact ⟨h.1, fun a => ih a (h.2 a)⟩

/-- The same for parts that may give up. -/
theorem AsksOnly.bindE {η : Type} {x : ExceptT η (Procedure Q A) α}
    {f : α → ExceptT η (Procedure Q A) β} (h : AsksOnly P x.run) (h' : ∀ a, AsksOnly P (f a).run) :
    AsksOnly P (x >>= f).run := by
  show AsksOnly P (x.run >>= ExceptT.bindCont f)
  apply h.bind
  intro r
  cases r with
  | error e => exact trivial
  | ok a => exact h' a

theorem AsksOnly.mono {P' : Q → Prop} {p : Procedure Q A α} (h : AsksOnly P p)
    (hP : ∀ q, P q → P' q) : AsksOnly P' p := by
  induction p with
  | done a => exact trivial
  | report line next ih => exact ih h
  | ask q next ih => exact ⟨hP q h.1, fun a => ih a (h.2 a)⟩

/-- Every question in the account is one of those that the procedure may ask. -/
theorem AsksOnly.of_mem_moments {reply : (q : Q) → σ → Except ε (A q) × σ} {p : Procedure Q A α}
    (h : AsksOnly P p) {s : σ} : ∀ m ∈ (account reply p s).moments, P m.2 := by
  induction p generalizing s with
  | done a =>
      intro m hm
      cases hm
  | report line next ih => exact ih h
  | ask q next ih =>
      intro m hm
      rw [account] at hm
      rcases hreply : reply q s with ⟨_ | a, s'⟩ <;> rw [hreply] at hm
      · rcases List.mem_singleton.mp hm with rfl
        exact h.1
      · rcases List.mem_cons.mp hm with rfl | htail
        · exact h.1
        · exact ih a (h.2 a) m htail

/-- If no question of the kind ends the process, the procedure has a result. -/
theorem AsksOnly.exists_result {reply : (q : Q) → σ → Except ε (A q) × σ} {p : Procedure Q A α}
    (h : AsksOnly P p) (hreply : ∀ q s, P q → ∃ a, (reply q s).1 = .ok a) (s : σ) :
    ∃ a, (account reply p s).result = .ok a := by
  induction p generalizing s with
  | done a => exact ⟨a, rfl⟩
  | report line next ih => exact ih h s
  | ask q next ih =>
      obtain ⟨a, ha⟩ := hreply q s h.1
      rw [account]
      rcases hq : reply q s with ⟨r, s'⟩
      rw [hq] at ha
      obtain rfl : r = .ok a := ha
      exact ih a (h.2 a) s'

end Procedure

end ConfigDrive
