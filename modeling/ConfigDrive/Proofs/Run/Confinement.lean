/-
# ConfigDrive.Proofs.Run.Confinement — the programs of a run come from the allow-list.

Whatever a command does, every program that it starts is one of the three configured ones, sees the
configured directories in its `PATH`, and was found in them on the tree of that moment.  A program that is
found in none is not started: the run ends there and then with an error that names the program and the
directories, or goes on without a mount (`programs_confined`).

What is found is a path, and with a slash in it this is the path of the file that runs.  Without a slash,
which takes a directory that is the empty text, it is a mere name for the system, and the system looks it
up in `PATH`, where colons divide: then a program may run that lies in no configured directory
(`found_name_is_looked_up_again`).
-/
import ConfigDrive.CommandLine.Program
import ConfigDrive.Proofs.Run.Moments
import ConfigDrive.Proofs.SearchPath

namespace ConfigDrive

open Host
open ConfigDrive.SearchPath (FoundAt isPath)
open ConfigDrive.Utilities (ofConfig)

/-! ## What runs -/

/-- What runs is what is at a path: the program that is there, or the one that interprets it. -/
def Host.Started.RunsFileAt (s : Started) (t : FileTree) (path : String) : Prop :=
  ∃ leaveToShell, Execution.start? t leaveToShell path s.command.args = .ok s.image

/-- A program that was started as a search path and a tree ask for it: it sees the directories in its
`PATH`, it was found in them, and what runs is what was found, if that is a path for the system. -/
structure Host.Started.Confined (s : Started) (dirs : List String) (t : FileTree) (r : Request) :
    Prop where
  path_eq : s.command.path = ":".intercalate dirs
  args_eq : s.command.args = r.args
  foundAt : FoundAt dirs t.isExecutable r.program s.command.program
  runsFileAt : isPath s.command.program = true ∨ "" ∉ dirs → s.RunsFileAt t s.command.program

/-- The system does not look up a path that holds a slash. -/
theorem image_of_isPath {t : FileTree} {replacing : Bool} {command : Command} {image : Image}
    (hpath : isPath command.program = true)
    (h : Execution.image? t replacing command = .ok image) :
    Execution.start? t replacing command.program command.args = .ok image := by
  have hattempts : (SearchPath.ofEnvValue command.path).attempts command.program =
      [command.program] := by
    rw [SearchPath.attempts, if_pos hpath]
  rw [Execution.image?, hattempts, hpath, Bool.not_true, Bool.or_false] at h
  split at h
  · cases h
  · split at h
    · cases h
    · -- of one path, either the start or the failure is the outcome
      rw [Execution.startFirst?] at h
      cases hstart : Execution.start? t replacing command.program command.args with
      | ok image' =>
          rw [hstart] at h
          exact h
      | error e =>
          rw [hstart] at h
          dsimp only at h
          split at h <;> cases h

variable {t : FileTree} {p : SearchPath} {r : Request} {s : Started}

theorem command_of_resolved {command : Command} (h : resolved t p r.program r.args = some command) :
    command.path = p.envValue ∧ command.args = r.args ∧
      FoundAt p.dirs t.isExecutable r.program command.program := by
  obtain ⟨path, hpath, rfl⟩ := Option.map_eq_some_iff.mp h
  exact ⟨rfl, rfl, SearchPath.resolve_eq_some_iff.mp hpath⟩

/-- **A program that was started** was found in the search path, and sees it. -/
theorem confined_of_mem_attempt
    (h : s ∈ (attempt t p r.replacing r.program r.args).started) : s.Confined p.dirs t r := by
  rw [attempt] at h
  cases hcommand : resolved t p r.program r.args with
  | none =>
      rw [hcommand] at h
      cases h
  | some command =>
      rw [hcommand] at h
      dsimp only at h
      cases himage : Execution.image? t r.replacing command with
      | error e =>
          rw [himage] at h
          cases h
      | ok image =>
          rw [himage] at h
          rcases List.mem_singleton.mp h with rfl
          obtain ⟨henv, hargs, hfound⟩ := command_of_resolved hcommand
          refine ⟨henv, hargs, hfound, fun hslash => ⟨r.replacing, ?_⟩⟩
          exact image_of_isPath (hslash.elim id (SearchPath.isPath_of_foundAt hfound)) himage

/-! ## Commands -/

/-- A command asks only for tools that are configured. -/
theorem orderly_perform (c : Config) (command : CommandLine.Command) :
    Run.Orderly (fun q => ∀ i, q = .launch i → i.program = c.downstream.program) (fun _ => True)
      (command.perform c).run := by
  have hquiet : ∀ q : Run.Question, q.isLaunch = false →
      ∀ i, q = .launch i → i.program = c.downstream.program := by
    rintro _ hq i rfl
    cases hq
  have htool : ∀ i : Invocation, i.program = c.downstream.program →
      ∀ j, Run.Question.launch i = .launch j → j.program = c.downstream.program := by
    rintro i hi _ ⟨⟩
    exact hi
  cases command with
  | early forwarded =>
      exact (Run.orderly_runVariant hquiet .early c forwarded htool).bind fun _ _ => .pure trivial
  | run forwarded =>
      exact (Run.orderly_runVariant hquiet .general c forwarded htool).bind fun _ _ => .pure trivial
  | detect =>
      refine Run.Orderly.bind (R := fun _ => True) ?_ fun report _ => ?_
      · rw [Run.detect]
        exact (Run.orderly_probe hquiet).bind fun _ _ => .pure trivial
      · exact (Run.Orderly.say _ _).bind fun _ _ => .pure trivial

/-- A request is for one of the three configured programs. -/
theorem program_of_request {c : Config} {q : Run.Question} {r : Request}
    (hq : ∀ i, q = .launch i → i.program = c.downstream.program)
    (h : (ofConfig c).request? q = some r) :
    r.program ∈ [c.blkid, c.mount, c.downstream.program] := by
  cases q with
  | launch i =>
      cases h
      simp [hq i rfl]
  | attemptMount device target options =>
      cases h
      simp [ofConfig]
  | makeMountPoint path => cases h
  | readMountTable => cases h
  | _ =>
      cases h
      simp [ofConfig]

theorem resolved_eq_none (h : ∀ path, ¬ FoundAt p.dirs t.isExecutable r.program path) :
    resolved t p r.program r.args = none := by
  rw [resolved, SearchPath.resolve_eq_none_iff_not_foundAt.mpr h]
  rfl

/-- **The programs of a command come from the allow-list.**  On every machine, the programs that a
command starts are those of its moments, and a machine notes the stand-ins among them.  At each moment, a
program is one of the configured ones, sees the directories joined by colons in its `PATH`, was found in
them on the tree of that moment, and is the file that was found there if that has a slash in its path or
no directory is the empty text.  A program that is not found is not started, and the error names it and
the directories: it is the reason why a mount is refused, and anything else ends with it.  Directories
that hold no executable of a name do not matter for where it is found. -/
theorem programs_confined (c : Config) (command : CommandLine.Command) (m : Machine) :
    let run := (ofConfig c).perform (command.perform c)
    let account := (ofConfig c).account (command.perform c).run m.tree
    (course run m.tree).started =
        account.moments.flatMap (fun moment => (ofConfig c).startedAt moment.1 moment.2) ∧
      (m.perform run).1 = account.result ∧
      (m.perform run).2.calls =
        m.calls ++ (course run m.tree).started.filterMap Started.call? ∧
      (∀ t q, (t, q) ∈ account.moments →
        ((ofConfig c).request? q = none → (ofConfig c).startedAt t q = []) ∧
        ∀ r, (ofConfig c).request? q = some r →
          r.program ∈ [c.blkid, c.mount, c.downstream.program] ∧
          (∀ s ∈ (ofConfig c).startedAt t q, s.Confined c.searchPath t r) ∧
          ((∀ path, ¬ FoundAt c.searchPath t.isExecutable r.program path) →
            (ofConfig c).startedAt t q = [] ∧
            (∀ device target options, q = .attemptMount device target options →
              ((ofConfig c).reply (.attemptMount device target options) t).1 =
                .ok (.refused (.notStarted
                  ("Program '" ++ c.mount ++ "' not found in search path " ++
                    ":".intercalate c.searchPath)))) ∧
            (q.isMount = false →
              (∃ before, account.moments = before ++ [(t, q)]) ∧
              account.result = .ok (.error (.programNotFound r.program c.allowList)) ∧
              (RunError.programNotFound r.program c.allowList).message =
                "Program '" ++ r.program ++ "' not found in search path " ++
                  ":".intercalate c.searchPath))) ∧
      ∀ dirs isExecutable program, isPath program = false →
        dirs.filter (fun d => isExecutable (Path.join d program)) =
            c.searchPath.filter (fun d => isExecutable (Path.join d program)) →
          SearchPath.resolve ⟨dirs⟩ isExecutable program =
            c.allowList.resolve isExecutable program := by
  dsimp only
  have hcourse := (ofConfig c).course_perform (command.perform c) m.tree
  obtain ⟨hresult, -, hcalls⟩ := m.perform_eq_course ((ofConfig c).perform (command.perform c))
  refine ⟨congrArg Course.started hcourse, hresult.trans (congrArg Course.result hcourse), hcalls,
    ?_, fun dirs isExecutable program hname h => SearchPath.resolve_eq_of_filter_eq hname h⟩
  intro t q hmoment
  have horderly := orderly_perform c command
  refine ⟨fun hnone => (ofConfig c).startedAt_of_no_request hnone t, fun r hr => ?_⟩
  refine ⟨program_of_request (horderly.asksOnly.of_mem_moments _ hmoment) hr, ?_, fun hnone => ?_⟩
  · intro s hs
    rw [(ofConfig c).startedAt_of_request hr] at hs
    exact confined_of_mem_attempt hs
  · have hunresolved : resolved t (ofConfig c).searchPath r.program r.args = none :=
      resolved_eq_none hnone
    refine ⟨Utilities.startedAt_of_unresolved hr hunresolved, ?_, fun hq => ?_⟩
    · rintro device target options rfl
      cases hr
      exact Utilities.reply_mount_of_unresolved hunresolved
    · -- the answer is the error, and an answer that is an error is the last one
      obtain ⟨a, ha, hfails⟩ := Utilities.reply_of_unresolved hr hunresolved hq
      obtain ⟨hlast, hend⟩ := horderly.failure_is_last hmoment ha hfails
      exact ⟨hlast, hend, rfl⟩

/-! ## A name that is looked up twice -/

/-- Settings with a directory that is the empty text and one with a colon in its name. -/
def colonSettings : Config :=
  { searchPath := ["a:b", ""] }

/-- A tree with one probe utility in the working directory and another in the directory `a`. -/
def twoProbes : FileTree :=
  { root :=
      [("blkid", .program 0o755 ⟨[], Shell.quiet 2⟩),
        ("a", .directory [("blkid", .program 0o755 ⟨[], Shell.quiet 2⟩)])]
    workingDirectory := [] }

/-- What is noted of the programs of `detect` with these settings and on this tree. -/
def detectCommands : List (Command × Option Call) :=
  (course ((ofConfig colonSettings).perform (CommandLine.Command.detect.perform colonSettings))
    twoProbes).started.map fun s => (s.command, s.call?)

set_option maxRecDepth 10000 in
/-- **A name that was found is looked up again.**  With the directories `a:b` and the empty text, the
probe utility is found in the latter; what runs is another one, in a directory `a` that is not configured,
and that is what a machine notes. -/
theorem found_name_is_looked_up_again :
    FoundAt colonSettings.searchPath twoProbes.isExecutable colonSettings.blkid "blkid" ∧
      (({ tree := twoProbes } : Machine).perform
        ((ofConfig colonSettings).perform
          (CommandLine.Command.detect.perform colonSettings))).2.calls =
        [⟨"a/blkid", ["-t", "LABEL=config-2"], "a:b:"⟩,
          ⟨"a/blkid", ["-t", "LABEL=CONFIG-2"], "a:b:"⟩] ∧
      ∃ s ∈ (course ((ofConfig colonSettings).perform
          (CommandLine.Command.detect.perform colonSettings)) twoProbes).started,
        s.command.program = "blkid" ∧ ¬ s.RunsFileAt twoProbes "blkid" := by
  have hfound : colonSettings.allowList.resolve twoProbes.isExecutable colonSettings.blkid =
      some "blkid" := by
    decide +kernel
  refine ⟨SearchPath.resolve_eq_some_iff.mp hfound, by decide +kernel, ?_⟩
  let command : Command := ⟨"blkid", ["-t", "LABEL=config-2"], "a:b:"⟩
  have hmem : (command, some ⟨"a/blkid", ["-t", "LABEL=config-2"], "a:b:"⟩) ∈ detectCommands := by
    decide +kernel
  obtain ⟨⟨_, image⟩, hs, heq⟩ := List.mem_map.mp hmem
  obtain ⟨rfl, hcall⟩ := Prod.mk.inj heq
  refine ⟨_, hs, rfl, ?_⟩
  -- the file at the found path would be noted under that path
  rintro ⟨leaveToShell, hstart⟩
  have hthere : (Execution.start? twoProbes leaveToShell "blkid" command.args).toOption.bind
      (fun image => (⟨command, image⟩ : Started).call?) = some command := by
    cases leaveToShell <;> decide +kernel
  rw [hstart, Except.toOption, Option.bind_some, hcall] at hthere
  exact absurd hthere (by decide)

end ConfigDrive
