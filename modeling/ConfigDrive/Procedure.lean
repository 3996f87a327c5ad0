/-
# ConfigDrive.Procedure — steps that ask for answers.

A procedure is a tree of questions: it ends with a result, reports a line of the log, or asks a question
and goes on as the answer says.  It fixes which questions are asked and in which order, and leaves the
answers to whoever runs it: a real system, a model of one, or a proof.  `Procedure.run` answers every
question in a monad; with another procedure as that monad, questions of one kind become procedures
that ask questions of another.
-/
import ConfigDrive.Log

namespace ConfigDrive

/-- A procedure whose questions are of type `Q`, the answers to `q` of type `A q`. -/
inductive Procedure (Q : Type) (A : Q → Type) (α : Type) : Type
  | done (result : α)
  | report (line : Log.Line) (next : Procedure Q A α)
  | ask (question : Q) (next : A question → Procedure Q A α)

namespace Procedure

variable {Q : Type} {A : Q → Type} {α β : Type}

/-- Go on with the result of a procedure. -/
def bind : Procedure Q A α → (α → Procedure Q A β) → Procedure Q A β
  | done a, f => f a
  | report line next, f => report line (next.bind f)
  | ask q next, f => ask q fun a => (next a).bind f

instance : Monad (Procedure Q A) where
  pure := done
  bind := bind

/-- Ask a question. -/
def question (q : Q) : Procedure Q A (A q) :=
  ask q done

/-- Report a line of the log. -/
def say (level : Log.Level) (message : String) : Procedure Q A Unit :=
  report ⟨level, message⟩ (done ())

/-- Report and answer in a monad. -/
def run {m : Type → Type} [Monad m] (say : Log.Line → m Unit) (answer : (q : Q) → m (A q)) :
    Procedure Q A α → m α
  | done a => pure a
  | report line next => do
    say line
    next.run say answer
  | ask q next => do
    let a ← answer q
    (next a).run say answer

/-- Replace every question by a procedure that finds its answer. -/
def refine {R : Type} {B : R → Type} (answer : (q : Q) → Procedure R B (A q)) :
    Procedure Q A α → Procedure R B α :=
  run (fun line => report line (done ())) answer

/-- Going on with a result and nothing else changes nothing. -/
theorem bind_done (p : Procedure Q A α) : p.bind done = p := by
  induction p with
  | done a => rfl
  | report line next ih => simp [bind, ih]
  | ask q next ih => simp [bind, ih]

/-- Going on twice is going on with what goes on. -/
theorem bind_assoc {γ : Type} (p : Procedure Q A α) (f : α → Procedure Q A β)
    (g : β → Procedure Q A γ) : (p.bind f).bind g = p.bind fun a => (f a).bind g := by
  induction p with
  | done a => rfl
  | report line next ih => simp [bind, ih]
  | ask q next ih => simp [bind, ih]

instance : LawfulMonad (Procedure Q A) :=
  LawfulMonad.mk' _ bind_done (fun _ _ => rfl) bind_assoc

/-- A procedure that goes on is run by going on with what is run. -/
theorem run_bind {m : Type → Type} [Monad m] [LawfulMonad m] (say : Log.Line → m Unit)
    (answer : (q : Q) → m (A q)) (p : Procedure Q A α) (f : α → Procedure Q A β) :
    (p >>= f).run say answer = p.run say answer >>= fun a => (f a).run say answer := by
  induction p with
  | done a => exact (LawfulMonad.pure_bind a fun a => (f a).run say answer).symm
  | report line next ih =>
    show (say line >>= fun _ => (next >>= f).run say answer) = (say line >>= _) >>= _
    rw [ih, LawfulMonad.bind_assoc]
  | ask q next ih =>
    show (answer q >>= fun a => (next a >>= f).run say answer) = (answer q >>= _) >>= _
    rw [LawfulMonad.bind_assoc]
    exact bind_congr ih

end Procedure

/-- Actions on a state are taken one after the other, until one of them cuts the rest off. -/
theorem run_bind_state {ε σ α β : Type} (x : ExceptT ε (StateM σ) α)
    (f : α → ExceptT ε (StateM σ) β) (s : σ) :
    (x >>= f).run.run s =
      match x.run.run s with
      | (.ok a, s') => (f a).run.run s'
      | (.error e, s') => (.error e, s') := by
  show (x.run >>= ExceptT.bindCont f).run s = _
  rw [StateT.run_bind]
  rcases x.run.run s with ⟨_ | _, s'⟩ <;> rfl

end ConfigDrive
