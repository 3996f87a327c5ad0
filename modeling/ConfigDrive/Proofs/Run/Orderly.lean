/-
# ConfigDrive.Proofs.Run.Orderly — what every part of a run keeps to.

A part of a run is **orderly** when it asks only questions of a certain kind, ends with the error of the
first answer that is one, and has only results of a certain kind.  This can be shown part by part, like a
rule for programs: `Orderly.bind` goes on with any result that the first part may have.  What follows for
a run is said once, of its account: its questions are of the kind, and a question whose answer is an error
is the last one and decides the result (`Orderly.failure_is_last`).
-/
import ConfigDrive.Proofs.Account
import ConfigDrive.Run.Variant

namespace ConfigDrive.Run

open ConfigDrive.Drive (Detection Label Location)

/-! ## Questions and answers -/

/-- The question asks for a tool to be started. -/
def Question.isLaunch : Question → Bool
  | .launch _ => true
  | _ => false

/-- The question asks for a drive to be mounted. -/
def Question.isMount : Question → Bool
  | .attemptMount _ _ _ => true
  | _ => false

/-- The answer gives a run up, with this error. -/
def Question.Fails : (q : Question) → q.Answer → RunError → Prop
  | .hasLabel _, a, e => a = .error e
  | .deviceFor _, a, e => a = .error e
  | .filesystemType _, a, e => a = .error e
  | .makeMountPoint path, a, e => ∃ cause, a = .error cause ∧ e = .mountPoint path cause
  | .launch _, a, e => a = .error e
  | .attemptMount _ _ _, _, _ => False
  | .readMountTable, _, _ => False

/-- No answer to the question gives a run up. -/
def Question.IsHarmless (q : Question) : Prop :=
  ∀ a e, ¬ q.Fails a e

/-- The part asks only `P`-questions, ends with the error of the first answer that is one, and has only
`R`-results. -/
def Orderly {α : Type} (P : Question → Prop) (R : α → Prop) : Steps (Except RunError α) → Prop
  | .done r => ∀ a, r = .ok a → R a
  | .report _ next => Orderly P R next
  | .ask q next =>
    P q ∧ (∀ a e, q.Fails a e → next a = .done (.error e)) ∧ ∀ a, Orderly P R (next a)

variable {α β σ ε : Type} {P : Question → Prop} {R : α → Prop} {S : β → Prop}

/-! ## In an account -/

namespace Orderly

variable {reply : (q : Question) → σ → Except ε q.Answer × σ} {p : Steps (Except RunError α)}

theorem asksOnly (h : Orderly P R p) : p.AsksOnly P := by
  induction p with
  | done r => exact trivial
  | report line next ih => exact ih h
  | ask q next ih => exact ⟨h.1, fun a => ih a (h.2.2 a)⟩

theorem of_result (h : Orderly P R p) {s : σ} {a : α}
    (ha : (Procedure.account reply p s).result = .ok (.ok a)) : R a := by
  induction p generalizing s with
  | done r =>
      cases ha
      exact h a rfl
  | report line next ih => exact ih h ha
  | ask q next ih =>
      rw [Procedure.account] at ha
      rcases hreply : reply q s with ⟨_ | b, s'⟩ <;> rw [hreply] at ha
      · cases ha
      · exact ih b (h.2.2 b) ha

/-- **A question whose answer is an error is the last one**, and the error is the result. -/
theorem failure_is_last (h : Orderly P R p) {s t : σ} {q : Question} {a : q.Answer} {e : RunError}
    (hq : (t, q) ∈ (Procedure.account reply p s).moments) (ha : (reply q t).1 = .ok a)
    (he : q.Fails a e) :
    (∃ before, (Procedure.account reply p s).moments = before ++ [(t, q)]) ∧
      (Procedure.account reply p s).result = .ok (.error e) := by
  induction p generalizing s with
  | done r => cases hq
  | report line next ih => exact ih h hq
  | ask q' next ih =>
      obtain ⟨-, hfails, hnext⟩ := h
      rw [Procedure.account] at hq ⊢
      rcases hreply : reply q' s with ⟨_ | b, s'⟩ <;> rw [hreply] at hq <;> dsimp only at hq ⊢
      · -- the process ended at the only question, so there was no answer to it
        rcases List.mem_singleton.mp hq with heq
        cases heq
        rw [hreply] at ha
        cases ha
      · rcases List.mem_cons.mp hq with heq | htail
        · cases heq
          rw [hreply] at ha
          cases ha
          rw [hfails a e he]
          exact ⟨⟨[], rfl⟩, rfl⟩
        · obtain ⟨⟨before, hbefore⟩, hresult⟩ := ih b (hnext b) htail
          refine ⟨⟨(s, q') :: before, ?_⟩, hresult⟩
          exact congrArg ((s, q') :: ·) hbefore

/-! ## Rules -/

theorem pure {a : α} (h : R a) : Orderly P R (pure a : RunM α).run := by
  rintro _ ⟨⟩
  exact h

theorem bind {x : RunM α} {f : α → RunM β} (h : Orderly P R x.run)
    (h' : ∀ a, R a → Orderly P S (f a).run) : Orderly P S (x >>= f).run := by
  show Orderly P S (x.run >>= ExceptT.bindCont f)
  generalize x.run = p at h
  induction p with
  | done r =>
      cases r with
      | error e => exact fun _ ha => nomatch ha
      | ok a => exact h' a (h a rfl)
  | report line next ih => exact ih h
  | ask q next ih =>
      obtain ⟨hq, hfails, hnext⟩ := h
      refine ⟨hq, fun a e he => ?_, fun a => ih a (hnext a)⟩
      show next a >>= ExceptT.bindCont f = _
      rw [hfails a e he]
      rfl

/-- A single question, whose answer is taken for the result. -/
theorem ask {q : Question} {result : q.Answer → Except RunError α} (h : P q)
    (hfails : ∀ a e, q.Fails a e → result a = .error e) :
    Orderly P (fun _ => True) (.ask q fun a => .done (result a)) :=
  ⟨h, fun a e he => congrArg Procedure.done (hfails a e he), fun _ _ _ => trivial⟩

/-- A part that cannot fail, because nothing that it asks can. -/
theorem lift {p : Steps α} (h : p.AsksOnly fun q => P q ∧ q.IsHarmless) :
    Orderly P (fun _ => True) (ExceptT.lift p : RunM α).run := by
  show Orderly P _ (p >>= fun a => Pure.pure (.ok a))
  induction p with
  | done a => exact fun _ _ => trivial
  | report line next ih => exact ih h
  | ask q next ih =>
      obtain ⟨⟨hq, hharmless⟩, hnext⟩ := h
      exact ⟨hq, fun a e he => absurd he (hharmless a e), fun a => ih a (hnext a)⟩

theorem say (level : Log.Level) (message : String) :
    Orderly P (fun _ => True) (say level message).run :=
  fun _ _ => trivial

end Orderly

/-! ## Finding the drive -/

theorem orderly_hasLabel {l : Label} (h : P (.hasLabel l)) :
    Orderly P (fun _ => True) (hasLabel l).run :=
  .ask h fun _ _ he => he

theorem orderly_deviceFor {l : Label} (h : P (.deviceFor l)) :
    Orderly P (fun _ => True) (deviceFor l).run :=
  .ask h fun _ _ he => he

theorem orderly_filesystemType {l : Label} (h : P (.filesystemType l)) :
    Orderly P (fun _ => True) (filesystemType l).run :=
  .ask h fun _ _ he => he

theorem orderly_launch {i : Invocation} (h : P (.launch i)) :
    Orderly P (fun _ => True) (launch i).run :=
  .ask h fun _ _ he => he

theorem orderly_makeMountPoint {path : String} (h : P (.makeMountPoint path)) :
    Orderly P (fun _ => True) (makeMountPoint path).run := by
  refine Orderly.ask h ?_
  rintro _ _ ⟨cause, rfl, rfl⟩
  rfl

section

variable (hP : ∀ q, q.isLaunch = false → P q)
include hP

theorem orderly_findAmong (ls : List Label) : Orderly P (fun _ => True) (findAmong ls).run := by
  induction ls with
  | nil => exact (Orderly.say _ _).bind fun _ _ => .pure trivial
  | cons l ls ih =>
      rw [findAmong]
      refine (Orderly.say _ _).bind fun _ _ => ?_
      refine (orderly_hasLabel (hP _ rfl)).bind fun present _ => ?_
      cases present with
      | true => exact (Orderly.say _ _).bind fun _ _ => .pure trivial
      | false => exact ih

theorem orderly_describe (l : Label) : Orderly P (fun _ => True) (describe l).run := by
  rw [describe]
  refine (orderly_deviceFor (hP _ rfl)).bind fun device _ => ?_
  refine (orderly_filesystemType (hP _ rfl)).bind fun fsType _ => ?_
  exact (Orderly.say _ _).bind fun _ _ => .pure trivial

theorem orderly_probe : Orderly P (fun _ => True) probe.run := by
  rw [probe]
  refine (orderly_findAmong hP Label.all).bind fun l? _ => ?_
  cases l? with
  | none => exact .pure trivial
  | some l => exact (orderly_describe hP l).bind fun _ _ => .pure trivial

theorem asksOnly_classify (target : String) (code : Option Nat) (stderr : String) :
    (classify target code stderr).AsksOnly fun q => P q ∧ q.IsHarmless := by
  rw [classify]
  refine Procedure.AsksOnly.bind (.question ⟨hP _ rfl, fun _ _ => id⟩) fun table => ?_
  cases table with
  | error e => exact trivial
  | ok table =>
      dsimp only
      split <;> exact trivial

theorem asksOnly_mount (mountPoint : String) (location : Location) :
    (mount mountPoint location).AsksOnly fun q => P q ∧ q.IsHarmless := by
  rw [mount, mountDevice]
  refine Procedure.AsksOnly.bind ?_ fun r => ?_
  · refine Procedure.AsksOnly.bind (.question ⟨hP _ rfl, fun _ _ => id⟩) fun attempt => ?_
    cases attempt with
    | mounted => exact trivial
    | refused failure => exact trivial
    | exited code stderr =>
        exact (asksOnly_classify hP _ code stderr).bind fun _ => trivial
  · cases r <;> exact trivial

/-- Looking for the drive and mounting it is orderly, and no tool is started by it. -/
theorem orderly_locate (mountPoint : String) :
    Orderly P (fun _ => True) (locate mountPoint).run := by
  rw [locate]
  refine (orderly_findAmong hP Label.all).bind fun l? _ => ?_
  cases l? with
  | none => exact .pure trivial
  | some l =>
      refine (orderly_makeMountPoint (hP _ rfl)).bind fun _ _ => ?_
      refine (orderly_describe hP l).bind fun location _ => ?_
      exact (Orderly.lift (asksOnly_mount hP mountPoint location)).bind fun _ _ => .pure trivial

/-! ## The whole run -/

/-- **Planning is orderly**: it starts no tool, and what it gives is a plan for what was found. -/
theorem orderly_planVariant (variant : Variant) (c : Config) (forwarded : List String) :
    Orderly P (fun h => ∃ detection, h = Handoff.plan variant detection c.downstream forwarded)
      (planVariant variant c forwarded).run := by
  rw [planVariant]
  refine (Orderly.say _ _).bind fun _ _ => ?_
  refine (orderly_locate hP c.mountPoint).bind fun detection _ => ?_
  cases detection.isFound with
  | true => exact .pure ⟨detection, rfl⟩
  | false => exact (Orderly.say _ _).bind fun _ _ => .pure ⟨detection, rfl⟩

/-- A run starts no tool but the configured one. -/
theorem orderly_runVariant (variant : Variant) (c : Config) (forwarded : List String)
    (hlaunch : ∀ i, i.program = c.downstream.program → P (.launch i)) :
    Orderly P (fun _ => True) (runVariant variant c forwarded).run := by
  rw [runVariant]
  refine (Orderly.say _ _).bind fun _ _ => ?_
  refine (orderly_planVariant hP variant c forwarded).bind ?_
  rintro _ ⟨detection, rfl⟩
  rw [Handoff.plan]
  split
  · exact (Orderly.say _ _).bind fun _ _ => .pure trivial
  · exact (Orderly.say _ _).bind fun _ _ => orderly_launch (hlaunch _ rfl)

end

end ConfigDrive.Run
