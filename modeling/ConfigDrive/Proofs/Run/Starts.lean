/-
# ConfigDrive.Proofs.Run.Starts — the programs behind the questions of a run.

The configured programs answer the questions of a run.  On a tree of files each question has a course of
its own: it starts one program or none, and its answer follows from how that went.  `attempt` is that
start, and the lemmas here say of each question which attempt is its course.  A run is performed part by
part (`course_perform_bind_ok`, `course_perform_bind_error`), so these are all that is needed to follow it.
-/
import ConfigDrive.Proofs.Host.Course
import ConfigDrive.Run.Variant
import ConfigDrive.Utilities

namespace ConfigDrive

open Host
open ConfigDrive.Drive (FilesystemType Label MountOptions)
open ConfigDrive.Run (RunM)

/-! ## Starting one program -/

/-- How the start of a program went: it was found in no directory, or the system refused to start it, or
it ran. -/
inductive Attempt
  | unresolved
  | refused (error : SystemError)
  | ran (program : Started)

/-- The program that was started, if it was. -/
def Attempt.started : Attempt → List Started
  | .ran program => [program]
  | _ => []

/-- Start a program that is looked up in the directories of a search path. -/
def attempt (t : FileTree) (p : SearchPath) (replacing : Bool) (program : String)
    (args : List String) : Attempt :=
  match resolved t p program args with
  | none => .unresolved
  | some command =>
    match Execution.image? t replacing command with
    | .error e => .refused e
    | .ok image => .ran ⟨command, image⟩

/-- An attempt that started a program is known by it. -/
theorem Attempt.exists_ran {β : Type} {a : Attempt} {f : Started → β} {b : β}
    (h : a.started.map f = [b]) : ∃ program, a = .ran program ∧ f program = b := by
  cases a with
  | unresolved => cases h
  | refused e => cases h
  | ran program => exact ⟨program, rfl, (List.cons.inj h).1⟩

/-- A program that ran was found, and started. -/
theorem attempt_eq_ran {t : FileTree} {p : SearchPath} {replacing : Bool} {program : String}
    {args : List String} {s : Started} (h : attempt t p replacing program args = .ran s) :
    resolved t p program args = some s.command ∧
      Execution.image? t replacing s.command = .ok s.image := by
  rw [attempt] at h
  cases hcommand : resolved t p program args with
  | none =>
      rw [hcommand] at h
      cases h
  | some command =>
      rw [hcommand] at h
      dsimp only at h
      cases himage : Execution.image? t replacing command with
      | error e =>
          rw [himage] at h
          cases h
      | ok image =>
          rw [himage] at h
          cases h
          exact ⟨rfl, himage⟩

/-- What came of a question: the programs that were started, and the answer. -/
structure Reply (α : Type) where
  started : List Started
  answer : Except RunError α

/-- The same start, with an answer that is read from the first one. -/
def Reply.read {α β : Type} (r : Reply α) (f : α → Except RunError β) : Reply β :=
  ⟨r.started, r.answer.bind f⟩

namespace Utilities

variable (u : Utilities) {α β : Type}

/-- Ask the probe utility about a label. -/
def probed (t : FileTree) (l : Label) (args : List String) : Reply Completion :=
  match attempt t u.searchPath false u.blkid args with
  | .unresolved => ⟨[], .error (u.notFound u.blkid)⟩
  | .refused e => ⟨[], .error (.probe l.text (.notStarted e))⟩
  | .ran program => ⟨[program], .ok program.image.completion⟩

/-- Ask whether a label is present. -/
def labelReply (t : FileTree) (l : Label) : Reply Bool :=
  (u.probed t l (Blkid.labelArgs l)).read (Blkid.labelAnswer l)

/-- Ask for the device with a label. -/
def deviceReply (t : FileTree) (l : Label) : Reply String :=
  (u.probed t l (Blkid.deviceArgs l)).read (Blkid.deviceAnswer l)

/-- Ask for the type of the filesystem with a label. -/
def typeReply (t : FileTree) (l : Label) : Reply FilesystemType :=
  (u.probed t l (Blkid.typeArgs l)).read (Blkid.typeAnswer l)

/-- Mount a device on a target. -/
def mountAttempt (t : FileTree) (device target : String) (options : MountOptions) : Attempt :=
  attempt t u.searchPath false u.mount (options.args ++ [device, target])

/-- A command that was found is started, or refused. -/
theorem startedBy_command {t : FileTree} {p : SearchPath} {program : String} {args : List String}
    {command : Command} (h : resolved t p program args = some command) (replacing : Bool) :
    startedBy t replacing command = (attempt t p replacing program args).started := by
  rw [attempt, h, startedBy]
  dsimp only
  cases Execution.image? t replacing command <;> rfl

theorem course_askBlkid (t : FileTree) (l : Label) (args : List String) :
    course (u.askBlkid l args) t =
      ⟨(u.probed t l args).started, .ok (u.probed t l args).answer, t⟩ := by
  have hfind := course_command? t u.searchPath u.blkid args
  rw [askBlkid, course_bind_look (course_say _ _ t), course_bind_look hfind, probed]
  cases hcommand : resolved t u.searchPath u.blkid args with
  | none =>
      rw [attempt, hcommand]
      rfl
  | some command =>
      dsimp only
      rw [course_bind, course_collect, startedBy_command hcommand, attempt, hcommand]
      dsimp only
      cases Execution.image? t false command <;> rfl

/-- The course of a question to the probe utility whose answer is read. -/
theorem course_askBlkid_read (t : FileTree) (l : Label) (args : List String)
    (f : Completion → Except RunError α) :
    course (do return (← u.askBlkid l args).bind f) t =
      ⟨((u.probed t l args).read f).started, .ok ((u.probed t l args).read f).answer, t⟩ :=
  course_bind_last (u.course_askBlkid t l args) (course_pure _ t)

theorem course_attemptMount (t : FileTree) (device target : String) (options : MountOptions) :
    ∃ outcome, course (u.attemptMount device target options) t =
      ⟨(u.mountAttempt t device target options).started, .ok outcome, t⟩ := by
  have hfind := course_command? t u.searchPath u.mount (options.args ++ [device, target])
  rw [attemptMount, course_bind_look hfind, mountAttempt]
  cases hcommand : resolved t u.searchPath u.mount (options.args ++ [device, target]) with
  | none =>
      rw [attempt, hcommand]
      exact ⟨_, rfl⟩
  | some command =>
      dsimp only
      rw [course_bind_look (course_say _ _ t), course_bind, course_collect,
        startedBy_command hcommand, attempt, hcommand]
      dsimp only
      -- how the utility ended decides the answer, but not what was started
      cases Execution.image? t false command with
      | error e => exact ⟨_, rfl⟩
      | ok image =>
          dsimp only [Except.map]
          cases image.completion.status.isSuccess with
          | true => exact ⟨_, rfl⟩
          | false => exact ⟨_, rfl⟩

theorem course_readMountTable (t : FileTree) :
    ∃ table, course u.readMountTable t = ⟨[], .ok table, t⟩ := by
  rw [readMountTable, course_bind_look (course_readText u.mountTable t)]
  cases t.readText u.mountTable with
  | error e => exact ⟨_, rfl⟩
  | ok text => exact ⟨_, rfl⟩

/-- What came of starting the last tool: the program that was started, and the result of the run. -/
structure Ending where
  started : List Started
  result : Except Completion (Except RunError Nat)

/-- Start the last tool.  In the place of this process it ends the run with its own end. -/
def ending (t : FileTree) (i : Invocation) : Ending :=
  match attempt t u.searchPath (i.mode == .replace) i.program i.args with
  | .unresolved => ⟨[], .ok (.error (u.notFound i.program))⟩
  | .refused e => ⟨[], .ok (.error (.launch i.program (.notStarted e)))⟩
  | .ran program =>
    match i.mode with
    | .replace => ⟨[program], .error program.image.completion⟩
    | .spawn => ⟨[program], .ok (.ok program.image.completion.status.exitCode)⟩

/-- The end of a tool that was started. -/
theorem ending_of_ran {u : Utilities} {t : FileTree} {i : Invocation} {program : Started}
    (h : attempt t u.searchPath (i.mode == .replace) i.program i.args = .ran program) :
    u.ending t i =
      match i.mode with
      | .replace => ⟨[program], .error program.image.completion⟩
      | .spawn => ⟨[program], .ok (.ok program.image.completion.status.exitCode)⟩ := by
  rw [ending, h]

theorem course_launch (t : FileTree) (i : Invocation) :
    course (u.launch i) t = ⟨(u.ending t i).started, (u.ending t i).result, t⟩ := by
  have hfind := course_command? t u.searchPath i.program i.args
  rw [launch, course_bind_look hfind, ending]
  cases hcommand : resolved t u.searchPath i.program i.args with
  | none =>
      rw [attempt, hcommand]
      rfl
  | some command =>
      have hstarted := startedBy_command hcommand
      rw [attempt, hcommand]
      dsimp only
      cases i.mode with
      | replace =>
          have hmode : (LaunchMode.replace == LaunchMode.replace) = true := rfl
          rw [course_bind, course_replace, hstarted, attempt, hcommand, hmode]
          dsimp only
          cases Execution.image? t true command with
          | error e => rfl
          | ok image => rfl
      | spawn =>
          have hmode : (LaunchMode.spawn == LaunchMode.replace) = false := rfl
          rw [course_bind, course_spawn, hstarted, attempt, hcommand, hmode]
          dsimp only
          cases Execution.image? t false command with
          | error e => rfl
          | ok image => rfl

/-! ## Part by part -/

/-- A run goes on as its parts are performed. -/
theorem perform_bind (x : RunM α) (f : α → RunM β) :
    u.perform (x >>= f) =
      u.perform x >>= fun
        | .ok a => u.perform (f a)
        | .error e => pure (.error e) := by
  show Procedure.run _ _ (x.run >>= ExceptT.bindCont f) = _
  rw [Procedure.run_bind]
  refine bind_congr fun r => ?_
  cases r <;> rfl

theorem course_perform_bind_ok {x : RunM α} {f : α → RunM β} {t t' t'' : FileTree}
    {s s' : List Started} {a : α} {r : Except Completion (Except RunError β)}
    (h : course (u.perform x) t = ⟨s, .ok (.ok a), t'⟩)
    (h' : course (u.perform (f a)) t' = ⟨s', r, t''⟩) :
    course (u.perform (x >>= f)) t = ⟨s ++ s', r, t''⟩ := by
  rw [perform_bind]
  exact course_bind_ok h h'

theorem course_perform_bind_error {x : RunM α} {f : α → RunM β} {t t' : FileTree}
    {s : List Started} {e : RunError} (h : course (u.perform x) t = ⟨s, .ok (.error e), t'⟩) :
    course (u.perform (x >>= f)) t = ⟨s, .ok (.error e), t'⟩ := by
  rw [perform_bind]
  exact course_bind_last h (course_pure _ t')

theorem course_perform_bind_look {x : RunM α} {f : α → RunM β} {t : FileTree} {a : α}
    (h : course (u.perform x) t = ⟨[], .ok (.ok a), t⟩) :
    course (u.perform (x >>= f)) t = course (u.perform (f a)) t := by
  rw [perform_bind, course_bind_look h]

/-! ## The questions of a run -/

theorem course_perform_say (level : Log.Level) (message : String) (t : FileTree) :
    course (u.perform (Run.say level message)) t = ⟨[], .ok (.ok ()), t⟩ :=
  rfl

/-- A question alone is performed by answering it. -/
theorem refine_question (q : Run.Question) : Procedure.refine u.answer (.question q) = u.answer q :=
  bind_pure _

theorem course_hasLabel (l : Label) (t : FileTree) :
    course (u.perform (Run.hasLabel l)) t =
      ⟨(u.labelReply t l).started, .ok (u.labelReply t l).answer, t⟩ := by
  refine Eq.trans (congrArg (course · t) (u.refine_question (.hasLabel l))) ?_
  exact u.course_askBlkid_read t l _ _

theorem course_deviceFor (l : Label) (t : FileTree) :
    course (u.perform (Run.deviceFor l)) t =
      ⟨(u.deviceReply t l).started, .ok (u.deviceReply t l).answer, t⟩ := by
  refine Eq.trans (congrArg (course · t) (u.refine_question (.deviceFor l))) ?_
  exact u.course_askBlkid_read t l _ _

theorem course_filesystemType (l : Label) (t : FileTree) :
    course (u.perform (Run.filesystemType l)) t =
      ⟨(u.typeReply t l).started, .ok (u.typeReply t l).answer, t⟩ := by
  refine Eq.trans (congrArg (course · t) (u.refine_question (.filesystemType l))) ?_
  exact u.course_askBlkid_read t l _ _

theorem course_performLaunch (i : Invocation) (t : FileTree) :
    course (u.perform (Run.launch i)) t = ⟨(u.ending t i).started, (u.ending t i).result, t⟩ := by
  refine Eq.trans (congrArg (course · t) (u.refine_question (.launch i))) ?_
  exact u.course_launch t i

theorem course_makeMountPoint (path : String) (t : FileTree) :
    course (u.perform (Run.makeMountPoint path)) t =
      ⟨[], .ok ((t.makeDirectories path).1.mapError (.mountPoint path)),
        (t.makeDirectories path).2⟩ := by
  have hmap : u.perform (Run.makeMountPoint path) =
      makeDirectories path >>= fun r => pure (r.mapError (.mountPoint path)) := by
    show Procedure.run _ _ (_ <$> Procedure.question (Run.Question.makeMountPoint path)) = _
    rw [← bind_pure_comp, Procedure.run_bind]
    exact congrArg (· >>= _) (u.refine_question (.makeMountPoint path))
  rw [hmap]
  exact course_bind_ok (course_makeDirectories path t) (course_pure _ _)

/-! ## The mount -/

theorem refine_bind (p : Run.Steps α) (f : α → Run.Steps β) :
    Procedure.refine u.answer (p >>= f) =
      Procedure.refine u.answer p >>= fun a => Procedure.refine u.answer (f a) :=
  Procedure.run_bind _ _ p f

theorem course_classify (t : FileTree) (target : String) (code : Option Nat) (stderr : String) :
    ∃ failure, course (Procedure.refine u.answer (Run.classify target code stderr)) t =
      ⟨[], .ok failure, t⟩ := by
  obtain ⟨table, htable⟩ := u.course_readMountTable t
  have hread : course (Procedure.refine u.answer Run.readMountTable) t = ⟨[], .ok table, t⟩ :=
    Eq.trans (congrArg (course · t) (u.refine_question .readMountTable)) htable
  rw [Run.classify, refine_bind, course_bind_look hread]
  cases table with
  | error e => exact ⟨_, rfl⟩
  | ok table =>
      dsimp only
      cases table.hasTarget target <;> exact ⟨_, rfl⟩

theorem course_mountDevice (t : FileTree) (device target : String) (options : MountOptions) :
    ∃ result, course (Procedure.refine u.answer (Run.mountDevice device target options)) t =
      ⟨(u.mountAttempt t device target options).started, .ok result, t⟩ := by
  obtain ⟨outcome, houtcome⟩ := u.course_attemptMount t device target options
  have hmount : course (Procedure.refine u.answer (Run.attemptMount device target options)) t =
      ⟨(u.mountAttempt t device target options).started, .ok outcome, t⟩ :=
    Eq.trans (congrArg (course · t) (u.refine_question (.attemptMount device target options))) houtcome
  rw [Run.mountDevice, refine_bind]
  cases outcome with
  | mounted => exact ⟨_, course_bind_last hmount (course_pure _ t)⟩
  | refused failure => exact ⟨_, course_bind_last hmount (course_pure _ t)⟩
  | exited code stderr =>
      obtain ⟨failure, hfailure⟩ := u.course_classify t target code stderr
      -- the second question reads the mount table and starts nothing
      refine ⟨.error failure, course_bind_last hmount ?_⟩
      show course (Procedure.refine u.answer (Run.classify target code stderr >>= _)) t = _
      rw [refine_bind]
      exact course_bind_look hfailure

/-- **A mount starts one program or none**, and the run goes on whatever came of it. -/
theorem course_mount (t : FileTree) (mountPoint : String) (location : Drive.Location) :
    ∃ outcome, course (u.perform (ExceptT.lift (Run.mount mountPoint location))) t =
      ⟨(u.mountAttempt t location.device mountPoint location.fsType.mountOptions).started,
        .ok (.ok outcome), t⟩ := by
  obtain ⟨result, hresult⟩ :=
    u.course_mountDevice t location.device mountPoint location.fsType.mountOptions
  have hlift : u.perform (ExceptT.lift (Run.mount mountPoint location)) =
      Procedure.refine u.answer (Run.mount mountPoint location) >>= fun a => pure (.ok a) := by
    show Procedure.refine u.answer (Except.ok <$> Run.mount mountPoint location) = _
    rw [← bind_pure_comp, refine_bind]
    rfl
  rw [hlift, Run.mount, refine_bind, LawfulMonad.bind_assoc]
  cases result with
  | ok _ => exact ⟨_, course_bind_last hresult rfl⟩
  | error failure => exact ⟨_, course_bind_last hresult rfl⟩

end Utilities

end ConfigDrive
