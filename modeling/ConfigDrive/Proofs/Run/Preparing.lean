/-
# ConfigDrive.Proofs.Run.Preparing — the mount point comes before the drive.

The only question of a run that changes the tree is the one that makes the mount point.  A part of a run
**prepares** a path if it asks that question once at most, for this path, gives up if it fails, and asks
about the drive only afterwards (`Prepares`).  So its account knows two trees: the one it began with, and
from the making on the one after it; whatever it asks about the drive, it asks on the latter
(`Utilities.prepared_account`).

A run on either occasion prepares the configured mount point, and `detect` makes no directory.
-/
import ConfigDrive.Proofs.Run.Moments

namespace ConfigDrive

namespace Run

open ConfigDrive.Drive (Label Location)

/-! ## Questions -/

/-- The question asks for directories to be made. -/
def Question.isMaking : Question → Bool
  | .makeMountPoint _ => true
  | _ => false

/-- The question is one about the drive: which device it is, which type it has, and to mount it. -/
def Question.isAboutDrive : Question → Bool
  | .deviceFor _ => true
  | .filesystemType _ => true
  | .attemptMount _ _ _ => true
  | _ => false

theorem Question.IsHarmless.isMaking_eq {q : Question} (h : q.IsHarmless) : q.isMaking = false := by
  cases q with
  | makeMountPoint path =>
      have hfails : Question.Fails (.makeMountPoint path) (.error .noParentDirectory)
        (.mountPoint path .noParentDirectory) := ⟨_, rfl, rfl⟩
      exact absurd hfails (h _ _)
  | _ => rfl

/-- The question is neither of the two kinds. -/
def Question.IsAside (q : Question) : Prop :=
  q.isMaking = false ∧ q.isAboutDrive = false

/-! ## Parts of a run -/

variable {α β : Type} {path : String}

/-- The part asks about the drive only after it had directories made along the path, which it does once
at most. -/
inductive Prepares (path : String) : Steps (Except RunError α) → Prop
  | done (r : Except RunError α) : Prepares path (.done r)
  | report {line : Log.Line} {next : Steps (Except RunError α)} (h : Prepares path next) :
      Prepares path (.report line next)
  | aside {q : Question} {next : q.Answer → Steps (Except RunError α)} (hq : q.IsAside)
      (h : ∀ a, Prepares path (next a)) : Prepares path (.ask q next)
  | make {next : Except SystemError Unit → Steps (Except RunError α)}
      (hfails : ∀ e, ∃ e', next (.error e) = .done (.error e'))
      (h : (next (.ok ())).AsksOnly fun q => q.isMaking = false) :
      Prepares path (.ask (.makeMountPoint path) next)

namespace Prepares

theorem of_asksOnly {p : Steps (Except RunError α)} (h : p.AsksOnly Question.IsAside) :
    Prepares path p := by
  induction p with
  | done r => exact .done r
  | report line next ih => exact .report (ih h)
  | ask q next ih => exact .aside h.1 fun a => ih a (h.2 a)

/-- A part of neither kind may come first. -/
theorem after {x : RunM α} {f : α → RunM β} (h : x.run.AsksOnly Question.IsAside)
    (h' : ∀ a, Prepares path (f a).run) : Prepares path (x >>= f).run := by
  show Prepares path (x.run >>= ExceptT.bindCont f)
  generalize x.run = p at h
  induction p with
  | done r =>
      cases r with
      | error e => exact .done _
      | ok a => exact h' a
  | report line next ih => exact .report (ih h)
  | ask q next ih => exact .aside h.1 fun a => ih a (h.2 a)

/-- A part of neither kind may come last. -/
theorem before {x : RunM α} {f : α → RunM β} (h : Prepares path x.run)
    (h' : ∀ a, (f a).run.AsksOnly Question.IsAside) : Prepares path (x >>= f).run := by
  show Prepares path (x.run >>= ExceptT.bindCont f)
  have hcont : ∀ r, (ExceptT.bindCont f r).AsksOnly Question.IsAside := by
    intro r
    cases r with
    | error e => exact trivial
    | ok a => exact h' a
  generalize x.run = p at h
  induction h with
  | done r => exact of_asksOnly (hcont r)
  | report h ih => exact .report ih
  | aside hq h ih => exact .aside hq ih
  | @make next hfails h =>
      apply Prepares.make
      · intro e
        obtain ⟨e', he'⟩ := hfails e
        refine ⟨e', ?_⟩
        rw [he']
        rfl
      · exact h.bind fun r => (hcont r).mono fun q hq => hq.1

/-- The making of the directories comes before what is asked about the drive. -/
theorem makeMountPoint_bind {f : Unit → RunM β}
    (h : (f ()).run.AsksOnly fun q => q.isMaking = false) :
    Prepares path (makeMountPoint path >>= f).run :=
  .make (fun _ => ⟨_, rfl⟩) h

end Prepares

/-! ## The whole run -/

section

variable {P : Question → Prop}

theorem asksOnly_say (level : Log.Level) (message : String) : (say level message).run.AsksOnly P :=
  trivial

theorem asksOnly_findAmong (hP : ∀ l, P (.hasLabel l)) (ls : List Label) :
    (findAmong ls).run.AsksOnly P := by
  induction ls with
  | nil => exact trivial
  | cons l ls ih =>
      rw [findAmong]
      refine (asksOnly_say _ _).bindE fun _ => ?_
      refine Procedure.AsksOnly.bindE (.question (hP l)) fun present => ?_
      cases present with
      | true => exact trivial
      | false => exact ih

theorem asksOnly_describe {l : Label} (hdevice : P (.deviceFor l)) (htype : P (.filesystemType l)) :
    (describe l).run.AsksOnly P := by
  rw [describe]
  refine Procedure.AsksOnly.bindE (.question hdevice) fun device => ?_
  refine Procedure.AsksOnly.bindE (.question htype) fun fsType => ?_
  exact trivial

end

/-- Describing the drive makes no directory. -/
theorem describe_makes_nothing (l : Label) :
    (describe l).run.AsksOnly fun q => q.isMaking = false :=
  asksOnly_describe rfl rfl

/-- Mounting it makes none either. -/
theorem mount_makes_nothing (path : String) (location : Location) :
    (mount path location).AsksOnly fun q => q.isMaking = false := by
  have hmount := asksOnly_mount (P := fun _ => True) (fun _ _ => trivial) path location
  exact hmount.mono fun q hq => hq.2.isMaking_eq

theorem prepares_locate (path : String) : Prepares path (locate path).run := by
  rw [locate]
  apply Prepares.after (asksOnly_findAmong (fun _ => ⟨rfl, rfl⟩) Label.all)
  intro l?
  cases l? with
  | none => exact .done _
  | some l =>
      apply Prepares.makeMountPoint_bind
      refine (describe_makes_nothing l).bindE fun location => ?_
      refine Procedure.AsksOnly.bindE ?_ fun _ => trivial
      exact (mount_makes_nothing path location).bind fun _ => trivial

theorem execute_asks_aside (h : Handoff) : (execute h).run.AsksOnly Question.IsAside := by
  cases h with
  | skip => exact trivial
  | delegate invocation =>
      rw [execute]
      refine (asksOnly_say _ _).bindE fun _ => ?_
      exact .question ⟨rfl, rfl⟩

/-- **A run prepares the mount point.** -/
theorem prepares_runVariant (variant : Variant) (c : Config) (forwarded : List String) :
    Prepares c.mountPoint (runVariant variant c forwarded).run := by
  rw [runVariant]
  refine Prepares.after (asksOnly_say _ _) fun _ => ?_
  refine Prepares.before ?_ execute_asks_aside
  rw [planVariant]
  refine Prepares.after (asksOnly_say _ _) fun _ => ?_
  refine (prepares_locate c.mountPoint).before fun detection => ?_
  cases detection.isFound <;> exact trivial

/-- **Looking for the drive** makes no directory. -/
theorem detect_makes_nothing (c : Config) : (detect c).run.AsksOnly fun q => q.isMaking = false := by
  rw [detect, probe]
  refine Procedure.AsksOnly.bindE ?_ fun _ => trivial
  refine (asksOnly_findAmong (fun _ => rfl) Label.all).bindE fun l? => ?_
  cases l? with
  | none => exact trivial
  | some l => exact (describe_makes_nothing l).bindE fun _ => trivial

end Run

/-! ## The trees of an account -/

namespace Utilities

open ConfigDrive.Run (Prepares)

variable (u : Utilities) {α : Type}

/-- Anything but the making of directories leaves the tree as it is. -/
theorem reply_leaves_tree {q : Run.Question} (h : q.isMaking = false) (t : FileTree) :
    (u.reply q t).2 = t := by
  cases q with
  | hasLabel l => exact congrArg Host.Course.tree (u.course_askBlkid_read t l _ _)
  | deviceFor l => exact congrArg Host.Course.tree (u.course_askBlkid_read t l _ _)
  | filesystemType l => exact congrArg Host.Course.tree (u.course_askBlkid_read t l _ _)
  | makeMountPoint path => cases h
  | attemptMount device target options =>
      obtain ⟨outcome, hcourse⟩ := u.course_attemptMount t device target options
      exact congrArg Host.Course.tree hcourse
  | readMountTable =>
      obtain ⟨table, hcourse⟩ := u.course_readMountTable t
      exact congrArg Host.Course.tree hcourse
  | launch i => exact congrArg Host.Course.tree (u.course_launch t i)

theorem reply_makeMountPoint (path : String) (t : FileTree) :
    u.reply (.makeMountPoint path) t =
      (.ok (t.makeDirectories path).1, (t.makeDirectories path).2) := by
  have hcourse := Host.course_makeDirectories path t
  exact Prod.ext (congrArg Host.Course.result hcourse) (congrArg Host.Course.tree hcourse)

/-- After any other question the rest goes on with the same tree. -/
theorem account_ask {q : Run.Question} {next : q.Answer → Run.Steps α} (h : q.isMaking = false)
    (t : FileTree) : u.account (.ask q next) t =
      match (u.reply q t).1 with
      | .error e => ⟨[.asked t q], .error e, t⟩
      | .ok a =>
        { u.account (next a) t with events := .asked t q :: (u.account (next a) t).events } := by
  have hsame := u.reply_leaves_tree h t
  rw [account, Procedure.account]
  rcases hreply : u.reply q t with ⟨_ | a, t'⟩
  all_goals
    rw [hreply] at hsame
    obtain rfl : t' = t := hsame
    rfl

/-- A part that makes no directory knows one tree. -/
theorem account_makes_nothing {p : Run.Steps α} (h : p.AsksOnly fun q => q.isMaking = false)
    (t : FileTree) : (u.account p t).state = t ∧ ∀ moment ∈ (u.account p t).moments, moment.1 = t := by
  induction p with
  | done a => exact ⟨rfl, nofun⟩
  | report line next ih => exact ih h
  | ask q next ih =>
      rw [u.account_ask h.1 t]
      cases (u.reply q t).1 with
      | error e => exact ⟨rfl, by simp [Account.moments, Event.moment?]⟩
      | ok a =>
          obtain ⟨hstate, hmoments⟩ := ih a (h.2 a)
          exact ⟨hstate, List.forall_mem_cons.mpr ⟨rfl, hmoments⟩⟩

/-- The trees of an account that asks about the drive on a tree where the path was made. -/
structure Prepared (path : String) (t : FileTree)
    (a : Account FileTree Run.Question Completion α) : Prop where
  state_eq : a.state = t ∨ a.state = (t.makeDirectories path).2
  made : ∀ t' q, (t', q) ∈ a.moments → q.isAboutDrive = true →
    (t.makeDirectories path).1 = .ok () ∧ t' = (t.makeDirectories path).2

/-- **What is asked about the drive is asked after the path was made**, and the tree is in the end the
one of the beginning or the one after that. -/
theorem prepared_account {path : String} {p : Run.Steps (Except RunError α)} (h : Prepares path p)
    (t : FileTree) : Prepared path t (u.account p t) := by
  induction h with
  | done r => exact ⟨.inl rfl, nofun⟩
  | report h ih => exact ⟨ih.state_eq, ih.made⟩
  | @aside q next hq h ih =>
      rw [u.account_ask hq.1 t]
      cases (u.reply q t).1 with
      | error e =>
          refine ⟨.inl rfl, fun t' q' hmem hdrive => ?_⟩
          cases List.mem_singleton.mp hmem
          simp [hq.2] at hdrive
      | ok a =>
          refine ⟨(ih a).state_eq, fun t' q' hmem hdrive => ?_⟩
          rcases List.mem_cons.mp hmem with heq | htail
          · cases heq
            simp [hq.2] at hdrive
          · exact (ih a).made t' q' htail hdrive
  | @make next hfails h =>
      rw [account, Procedure.account, u.reply_makeMountPoint]
      dsimp only
      cases hmade : (t.makeDirectories path).1 with
      | error e =>
          obtain ⟨e', hnext⟩ := hfails e
          rw [hnext]
          refine ⟨.inr rfl, fun t' q hmem hdrive => ?_⟩
          cases List.mem_singleton.mp hmem
          cases hdrive
      | ok _ =>
          -- what comes after the making makes no directory, so it knows the new tree alone
          obtain ⟨hstate, hmoments⟩ := u.account_makes_nothing h (t.makeDirectories path).2
          refine ⟨.inr hstate, fun t' q hmem hdrive => ?_⟩
          rcases List.mem_cons.mp hmem with heq | htail
          · cases heq
            cases hdrive
          · exact ⟨hmade, hmoments (t', q) htail⟩

end Utilities

end ConfigDrive
