/-
# ConfigDrive.Proofs.Run.Moments — the questions of a run, each at its moment.

A run on a tree of files is a series of **moments**: a question, and the tree on which it is asked.  The
programs of a run are those that are started at its moments, one after the other (`course_perform`), and a
moment starts one program or none: the one that its question requests, if that is found in the search path
at that moment and the system starts it (`startedAt_of_request`).  A program that is not found has one
answer, whichever question requests it (`reply_of_unresolved`).
-/
import ConfigDrive.Proofs.Run.Orderly
import ConfigDrive.Proofs.Run.Starts

namespace ConfigDrive

open Host
open ConfigDrive.Run (RunM)

/-- What a question needs: a program with arguments, as a child or in the place of this process. -/
structure Request where
  program : String
  args : List String
  replacing : Bool
  deriving DecidableEq, Repr

namespace Utilities

variable (u : Utilities) {α β : Type}

/-- The program that a question needs. -/
def request? : Run.Question → Option Request
  | .hasLabel l => some ⟨u.blkid, Blkid.labelArgs l, false⟩
  | .deviceFor l => some ⟨u.blkid, Blkid.deviceArgs l, false⟩
  | .filesystemType l => some ⟨u.blkid, Blkid.typeArgs l, false⟩
  | .attemptMount device target options => some ⟨u.mount, options.args ++ [device, target], false⟩
  | .launch i => some ⟨i.program, i.args, i.mode == .replace⟩
  | .makeMountPoint _ => none
  | .readMountTable => none

/-- The programs that are started to answer a question. -/
def startedAt (t : FileTree) (q : Run.Question) : List Started :=
  (course (u.answer q) t).started

/-- The answer to a question, and the tree after it. -/
def reply (q : Run.Question) (t : FileTree) : Except Completion q.Answer × FileTree :=
  ((course (u.answer q) t).result, (course (u.answer q) t).tree)

/-- The account of a part of a run. -/
def account (p : Run.Steps α) (t : FileTree) : Account FileTree Run.Question Completion α :=
  Procedure.account u.reply p t

/-- The programs of a part of a run, each with the question for which it is started. -/
def starts (p : Run.Steps α) (t : FileTree) : List (Run.Question × Started) :=
  (u.account p t).moments.flatMap fun m => (u.startedAt m.1 m.2).map (m.2, ·)

/-! ## A run is its moments -/

/-- **The programs of a run are those of its moments**, and the run ends as its account does. -/
theorem course_refine (p : Run.Steps α) (t : FileTree) :
    course (Procedure.refine u.answer p) t =
      ⟨(u.account p t).moments.flatMap fun m => u.startedAt m.1 m.2, (u.account p t).result,
        (u.account p t).state⟩ := by
  induction p generalizing t with
  | done a => rfl
  | report line next ih => exact ih t
  | ask q next ih =>
      have hcourse : course (u.answer q) t =
          ⟨u.startedAt t q, (u.reply q t).1, (u.reply q t).2⟩ := rfl
      show course (u.answer q >>= fun a => Procedure.refine u.answer (next a)) t = _
      rw [course_bind, hcourse, account, Procedure.account]
      rcases u.reply q t with ⟨_ | a, t'⟩ <;> dsimp only
      · exact congrArg (Course.mk · _ _) (List.append_nil _).symm
      · rw [ih a t']
        rfl

theorem course_perform (r : RunM α) (t : FileTree) :
    course (u.perform r) t =
      ⟨(u.account r.run t).moments.flatMap fun m => u.startedAt m.1 m.2, (u.account r.run t).result,
        (u.account r.run t).state⟩ :=
  u.course_refine r.run t

theorem map_snd_starts (r : RunM α) (t : FileTree) :
    (u.starts r.run t).map Prod.snd = (course (u.perform r) t).started := by
  rw [course_perform, starts, List.map_flatMap]
  refine congrArg (List.flatMap · _) (funext fun m => ?_)
  rw [List.map_map]
  exact List.map_id _

/-! ## Part by part -/

section

variable {u} {x : RunM α} {f : α → RunM β} {t : FileTree}

theorem account_bind_ok {a : α} (h : (u.account x.run t).result = .ok (.ok a)) :
    u.account (x >>= f).run t =
      { u.account (f a).run (u.account x.run t).state with
        events := (u.account x.run t).events ++
          (u.account (f a).run (u.account x.run t).state).events } := by
  have hx : u.account x.run t =
      ⟨(u.account x.run t).events, .ok (.ok a), (u.account x.run t).state⟩ := by
    rw [← h]
  exact Procedure.account_bindE_ok u.reply hx

theorem account_bind_error {e : RunError} (h : (u.account x.run t).result = .ok (.error e)) :
    u.account (x >>= f).run t =
      ⟨(u.account x.run t).events, .ok (.error e), (u.account x.run t).state⟩ := by
  have hx : u.account x.run t =
      ⟨(u.account x.run t).events, .ok (.error e), (u.account x.run t).state⟩ := by
    rw [← h]
  exact Procedure.account_bindE_error u.reply hx

theorem starts_bind_ok {a : α} (h : (u.account x.run t).result = .ok (.ok a)) :
    u.starts (x >>= f).run t =
      u.starts x.run t ++ u.starts (f a).run (u.account x.run t).state := by
  rw [starts, account_bind_ok h, Account.moments, List.filterMap_append, List.flatMap_append]
  rfl

theorem starts_bind_error {e : RunError} (h : (u.account x.run t).result = .ok (.error e)) :
    u.starts (x >>= f).run t = u.starts x.run t := by
  rw [starts, account_bind_error h]
  rfl

/-- A line of the log is an event, and nothing else changes. -/
theorem account_say_bind (level : Log.Level) (message : String) :
    u.account (Run.say level message >>= fun _ => x).run t =
      { u.account x.run t with events := .said ⟨level, message⟩ :: (u.account x.run t).events } :=
  rfl

theorem starts_say_bind (level : Log.Level) (message : String) :
    u.starts (Run.say level message >>= fun _ => x).run t = u.starts x.run t := by
  rw [starts, account_say_bind]
  rfl

end

/-! ## One moment -/

theorem probed_started (t : FileTree) (l : Drive.Label) (args : List String) :
    (u.probed t l args).started = (attempt t u.searchPath false u.blkid args).started := by
  rw [probed]
  cases attempt t u.searchPath false u.blkid args <;> rfl

theorem startedAt_askBlkid (t : FileTree) (l : Drive.Label) (args : List String)
    (f : Completion → Except RunError α) :
    (course (do return (← u.askBlkid l args).bind f) t).started =
      (attempt t u.searchPath false u.blkid args).started := by
  rw [course_askBlkid_read]
  exact u.probed_started t l args

/-- A question starts what it requests, if the system can find it and start it. -/
theorem startedAt_of_request {q : Run.Question} {r : Request} (h : u.request? q = some r)
    (t : FileTree) :
    u.startedAt t q = (attempt t u.searchPath r.replacing r.program r.args).started := by
  cases q with
  | hasLabel l =>
      cases h
      exact u.startedAt_askBlkid t l _ _
  | deviceFor l =>
      cases h
      exact u.startedAt_askBlkid t l _ _
  | filesystemType l =>
      cases h
      exact u.startedAt_askBlkid t l _ _
  | attemptMount device target options =>
      cases h
      obtain ⟨outcome, hcourse⟩ := u.course_attemptMount t device target options
      exact congrArg Course.started hcourse
  | launch i =>
      cases h
      have hstarted : u.startedAt t (.launch i) = (u.ending t i).started :=
        congrArg Course.started (u.course_launch t i)
      rw [hstarted, ending]
      cases attempt t u.searchPath (i.mode == .replace) i.program i.args with
      | ran program => cases i.mode <;> rfl
      | _ => rfl
  | makeMountPoint path => cases h
  | readMountTable => cases h

/-- A question that requests no program starts none. -/
theorem startedAt_of_no_request {q : Run.Question} (h : u.request? q = none) (t : FileTree) :
    u.startedAt t q = [] := by
  cases q with
  | makeMountPoint path => exact congrArg Course.started (course_makeDirectories path t)
  | readMountTable =>
      obtain ⟨table, hcourse⟩ := u.course_readMountTable t
      exact congrArg Course.started hcourse
  | _ => cases h

/-- Only a tool can take the place of this process, so every other question has an answer. -/
theorem reply_ok_of_not_launch {q : Run.Question} (h : q.isLaunch = false) (t : FileTree) :
    ∃ a, (u.reply q t).1 = .ok a := by
  cases q with
  | hasLabel l => exact ⟨_, congrArg Course.result (u.course_askBlkid_read t l _ _)⟩
  | deviceFor l => exact ⟨_, congrArg Course.result (u.course_askBlkid_read t l _ _)⟩
  | filesystemType l => exact ⟨_, congrArg Course.result (u.course_askBlkid_read t l _ _)⟩
  | makeMountPoint path => exact ⟨_, congrArg Course.result (course_makeDirectories path t)⟩
  | attemptMount device target options =>
      obtain ⟨outcome, hcourse⟩ := u.course_attemptMount t device target options
      exact ⟨outcome, congrArg Course.result hcourse⟩
  | readMountTable =>
      obtain ⟨table, hcourse⟩ := u.course_readMountTable t
      exact ⟨table, congrArg Course.result hcourse⟩
  | launch i => cases h

/-! ## Programs that are not found -/

variable {u} {t : FileTree} {q : Run.Question} {r : Request}

theorem startedAt_of_unresolved (h : u.request? q = some r)
    (hnone : resolved t u.searchPath r.program r.args = none) : u.startedAt t q = [] := by
  rw [u.startedAt_of_request h, attempt, hnone]
  rfl

theorem reply_askBlkid_of_unresolved {l : Drive.Label} {args : List String}
    {f : Completion → Except RunError α} (hnone : resolved t u.searchPath u.blkid args = none) :
    (course (do return (← u.askBlkid l args).bind f) t).result =
      .ok (.error (u.notFound u.blkid)) := by
  rw [course_askBlkid_read, Reply.read, probed, attempt, hnone]
  rfl

/-- A mount by a program that is not found is refused with the text of the error. -/
theorem reply_mount_of_unresolved {device target : String} {options : Drive.MountOptions}
    (hnone : resolved t u.searchPath u.mount (options.args ++ [device, target]) = none) :
    (u.reply (.attemptMount device target options) t).1 =
      .ok (.refused (.notStarted (u.notFound u.mount).message)) := by
  show (course (u.attemptMount device target options) t).result = _
  rw [attemptMount, course_bind_look (course_command? t _ _ _), hnone]
  rfl

/-- Any other request for a program that is not found is answered by the error. -/
theorem reply_of_unresolved (h : u.request? q = some r)
    (hnone : resolved t u.searchPath r.program r.args = none) (hq : q.isMount = false) :
    ∃ a, (u.reply q t).1 = .ok a ∧ q.Fails a (u.notFound r.program) := by
  cases q with
  | hasLabel l =>
      cases h
      exact ⟨_, reply_askBlkid_of_unresolved hnone, rfl⟩
  | deviceFor l =>
      cases h
      exact ⟨_, reply_askBlkid_of_unresolved hnone, rfl⟩
  | filesystemType l =>
      cases h
      exact ⟨_, reply_askBlkid_of_unresolved hnone, rfl⟩
  | launch i =>
      cases h
      refine ⟨.error (u.notFound i.program), ?_, rfl⟩
      show (course (u.launch i) t).result = _
      rw [course_launch, ending, attempt, hnone]
  | attemptMount device target options => cases hq
  | makeMountPoint path => cases h
  | readMountTable => cases h

end Utilities

end ConfigDrive
