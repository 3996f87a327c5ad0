/-
# ConfigDrive.Proofs.Run.Trace — the programs of a run.

`Trace` lists every way in which a run on a tree of files can go: which programs are started, in which
order and with which arguments, how the run ends, and what the tree is like after it.  A query of the probe
utility that fails cuts the run off, and so does an output that names no device, or a mount point that
cannot be made; a mount that cannot be started is only missing.  After a search that found no drive nothing
is asked about one, and nothing is made.

Every trace is the course of the run (`Trace.course_eq`), and some trace there always is
(`exists_trace`), so the programs of a run are exactly those of its trace (`runVariant_trace`).
-/
import ConfigDrive.Proofs.Run.Queries

namespace ConfigDrive.Run

open Host
open ConfigDrive.Drive
open ConfigDrive.Utilities (ofConfig)

/-! ## The ways a run can go -/

section

variable (c : Config) (t : FileTree)

/-- The search for a label: the second one is asked for if the first one is absent. -/
inductive Search : List Started → Except RunError (Option Label) → Prop
  | lower {s : List Started} (h : LabelAsked c t .lower s (.ok true)) : Search s (.ok (some .lower))
  | upper {s₁ s₂ : List Started} (h₁ : LabelAsked c t .lower s₁ (.ok false))
      (h₂ : LabelAsked c t .upper s₂ (.ok true)) : Search (s₁ ++ s₂) (.ok (some .upper))
  | absent {s₁ s₂ : List Started} (h₁ : LabelAsked c t .lower s₁ (.ok false))
      (h₂ : LabelAsked c t .upper s₂ (.ok false)) : Search (s₁ ++ s₂) (.ok none)
  | lowerFails {s : List Started} {e : RunError} (h : LabelAsked c t .lower s (.error e)) :
      Search s (.error e)
  | upperFails {s₁ s₂ : List Started} {e : RunError} (h₁ : LabelAsked c t .lower s₁ (.ok false))
      (h₂ : LabelAsked c t .upper s₂ (.error e)) : Search (s₁ ++ s₂) (.error e)

/-- The flags of the last tool: those for a drive that was found, and those of the settings. -/
def toolFlags (variant : Variant) (found : Bool) : List String :=
  (match variant, found with
    | _, false => []
    | .general, true => ["--ssh", "--hostname"]
    | .early, true => ["--ssh", "--hostname", "--skip-network"]) ++
  (if c.downstream.useNm then ["--use-nm"] else []) ++
  (if c.downstream.noDhcpFallback then ["--no-dhcp-fallback"] else []) ++
  (if c.downstream.debug then ["--debug"] else []) ++ c.downstream.extraArgs

/-- The command line of the last tool: its flags and the forwarded arguments.  Early in the boot the tool
takes the place of the run. -/
def lastTool (variant : Variant) (found : Bool) (forwarded : List String) : Invocation where
  program := c.downstream.program
  args := toolFlags c variant found ++ forwarded
  mode :=
    match variant with
    | .early => .replace
    | .general => .spawn

/-- The tree after the mount point was made. -/
def withMountPoint : FileTree :=
  (t.makeDirectories c.mountPoint).2

/-- **The ways a run can go**: the programs that are started, in order, the result, and the tree after
it. -/
inductive Trace (variant : Variant) (forwarded : List String) :
    List Started → Except Completion (Except RunError Nat) → FileTree → Prop
  | searchFails {s : List Started} {e : RunError} (hs : Search c t s (.error e)) :
      Trace variant forwarded s (.ok (.error e)) t
  | skipped {s : List Started} (hs : Search c t s (.ok none)) (hv : variant = .early) :
      Trace variant forwarded s (.ok (.ok 0)) t
  | withoutDrive {s : List Started} (hs : Search c t s (.ok none)) (hv : variant = .general) :
      Trace variant forwarded
        (s ++ ((ofConfig c).ending t (lastTool c variant false forwarded)).started)
        ((ofConfig c).ending t (lastTool c variant false forwarded)).result t
  | mountPointFails {s : List Started} {l : Label} {e : SystemError}
      (hs : Search c t s (.ok (some l))) (hm : (t.makeDirectories c.mountPoint).1 = .error e) :
      Trace variant forwarded s (.ok (.error (.mountPoint c.mountPoint e))) (withMountPoint c t)
  | deviceFails {s s₁ : List Started} {l : Label} {e : RunError}
      (hs : Search c t s (.ok (some l))) (hm : (t.makeDirectories c.mountPoint).1 = .ok ())
      (hd : DeviceAsked c (withMountPoint c t) l s₁ (.error e)) :
      Trace variant forwarded (s ++ s₁) (.ok (.error e)) (withMountPoint c t)
  | typeFails {s s₁ s₂ : List Started} {l : Label} {device : String} {e : RunError}
      (hs : Search c t s (.ok (some l))) (hm : (t.makeDirectories c.mountPoint).1 = .ok ())
      (hd : DeviceAsked c (withMountPoint c t) l s₁ (.ok device))
      (ht : TypeAsked c (withMountPoint c t) l s₂ (.error e)) :
      Trace variant forwarded (s ++ s₁ ++ s₂) (.ok (.error e)) (withMountPoint c t)
  | withDrive {s s₁ s₂ : List Started} {l : Label} {device : String} {fsType : FilesystemType}
      (hs : Search c t s (.ok (some l))) (hm : (t.makeDirectories c.mountPoint).1 = .ok ())
      (hd : DeviceAsked c (withMountPoint c t) l s₁ (.ok device))
      (ht : TypeAsked c (withMountPoint c t) l s₂ (.ok fsType)) :
      Trace variant forwarded
        (s ++ s₁ ++ s₂ ++ (mounting c (withMountPoint c t) device fsType).started ++
          ((ofConfig c).ending (withMountPoint c t) (lastTool c variant true forwarded)).started)
        ((ofConfig c).ending (withMountPoint c t) (lastTool c variant true forwarded)).result
        (withMountPoint c t)

end

/-! ## The queries -/

section

variable {c : Config} {t : FileTree} {l : Label} {s : List Started}

theorem LabelAsked.course_eq {r : Except RunError Bool} (h : LabelAsked c t l s r) :
    course ((ofConfig c).perform (hasLabel l)) t = ⟨s, .ok r, t⟩ := by
  rw [Utilities.course_hasLabel, h.reply_eq]

theorem DeviceAsked.course_eq {r : Except RunError String} (h : DeviceAsked c t l s r) :
    course ((ofConfig c).perform (deviceFor l)) t = ⟨s, .ok r, t⟩ := by
  rw [Utilities.course_deviceFor, h.reply_eq]

theorem TypeAsked.course_eq {r : Except RunError FilesystemType} (h : TypeAsked c t l s r) :
    course ((ofConfig c).perform (filesystemType l)) t = ⟨s, .ok r, t⟩ := by
  rw [Utilities.course_filesystemType, h.reply_eq]

/-! ## The search for a label -/

variable {ls : List Label}

theorem course_findAmong_present (h : LabelAsked c t l s (.ok true)) :
    course ((ofConfig c).perform (findAmong (l :: ls))) t = ⟨s, .ok (.ok (some l)), t⟩ := by
  rw [findAmong, (ofConfig c).course_perform_bind_look ((ofConfig c).course_perform_say _ _ t),
    (ofConfig c).perform_bind]
  exact course_bind_last h.course_eq rfl

theorem course_findAmong_absent (h : LabelAsked c t l s (.ok false)) {s' : List Started}
    {r : Except RunError (Option Label)}
    (hrest : course ((ofConfig c).perform (findAmong ls)) t = ⟨s', .ok r, t⟩) :
    course ((ofConfig c).perform (findAmong (l :: ls))) t = ⟨s ++ s', .ok r, t⟩ := by
  rw [findAmong, (ofConfig c).course_perform_bind_look ((ofConfig c).course_perform_say _ _ t)]
  exact (ofConfig c).course_perform_bind_ok h.course_eq hrest

theorem course_findAmong_fails {e : RunError} (h : LabelAsked c t l s (.error e)) :
    course ((ofConfig c).perform (findAmong (l :: ls))) t = ⟨s, .ok (.error e), t⟩ := by
  rw [findAmong, (ofConfig c).course_perform_bind_look ((ofConfig c).course_perform_say _ _ t)]
  exact (ofConfig c).course_perform_bind_error h.course_eq

theorem course_findAmong_nil (u : Utilities) (t : FileTree) :
    course (u.perform (findAmong [])) t = ⟨[], .ok (.ok none), t⟩ :=
  rfl

end

section

variable {c : Config} {t : FileTree} {s : List Started}

/-- A search is the course of the search. -/
theorem Search.course_eq {r : Except RunError (Option Label)} (h : Search c t s r) :
    course ((ofConfig c).perform findLabel) t = ⟨s, .ok r, t⟩ := by
  show course ((ofConfig c).perform (findAmong [.lower, .upper])) t = _
  cases h with
  | lower h => exact course_findAmong_present h
  | upper h₁ h₂ => exact course_findAmong_absent h₁ (course_findAmong_present h₂)
  | absent h₁ h₂ =>
      -- behind the second label there is none to ask for
      have hupper := course_findAmong_absent h₂ (course_findAmong_nil (ofConfig c) t)
      rw [List.append_nil] at hupper
      exact course_findAmong_absent h₁ hupper
  | lowerFails h => exact course_findAmong_fails h
  | upperFails h₁ h₂ => exact course_findAmong_absent h₁ (course_findAmong_fails h₂)

theorem exists_search (c : Config) (t : FileTree) : ∃ s r, Search c t s r := by
  obtain ⟨s₁, lower, hlower⟩ := exists_labelAsked c t .lower
  obtain ⟨s₂, upper, hupper⟩ := exists_labelAsked c t .upper
  match lower, upper with
  | .error e, _ => exact ⟨_, _, .lowerFails hlower⟩
  | .ok true, _ => exact ⟨_, _, .lower hlower⟩
  | .ok false, .error e => exact ⟨_, _, .upperFails hlower hupper⟩
  | .ok false, .ok true => exact ⟨_, _, .upper hlower hupper⟩
  | .ok false, .ok false => exact ⟨_, _, .absent hlower hupper⟩

/-! ## Finding and mounting the drive -/

theorem course_locate_fails {e : RunError} (hs : Search c t s (.error e)) :
    course ((ofConfig c).perform (locate c.mountPoint)) t = ⟨s, .ok (.error e), t⟩ := by
  rw [locate]
  exact (ofConfig c).course_perform_bind_error hs.course_eq

theorem course_locate_absent (hs : Search c t s (.ok none)) :
    course ((ofConfig c).perform (locate c.mountPoint)) t = ⟨s, .ok (.ok .notFound), t⟩ := by
  rw [locate, Utilities.perform_bind]
  exact course_bind_last hs.course_eq rfl

/-- With a label that was found, the mount point comes next. -/
theorem course_locate_found {l : Label} (hs : Search c t s (.ok (some l))) {s' : List Started}
    {r : Except Completion (Except RunError Detection)} {t' : FileTree}
    (hrest : course ((ofConfig c).perform (do
      makeMountPoint c.mountPoint
      let location ← describe l
      return .found location (← ExceptT.lift (mount c.mountPoint location)))) t = ⟨s', r, t'⟩) :
    course ((ofConfig c).perform (locate c.mountPoint)) t = ⟨s ++ s', r, t'⟩ := by
  rw [locate]
  exact (ofConfig c).course_perform_bind_ok hs.course_eq hrest

theorem course_locate_mountPointFails {l : Label} (hs : Search c t s (.ok (some l)))
    {e : SystemError} (hm : (t.makeDirectories c.mountPoint).1 = .error e) :
    course ((ofConfig c).perform (locate c.mountPoint)) t =
      ⟨s, .ok (.error (.mountPoint c.mountPoint e)), withMountPoint c t⟩ := by
  have hmade := (ofConfig c).course_makeMountPoint c.mountPoint t
  rw [hm] at hmade
  have hlocate := course_locate_found hs ((ofConfig c).course_perform_bind_error hmade)
  rw [List.append_nil] at hlocate
  exact hlocate

/-- With a mount point, the drive is described next, on the tree that has it. -/
theorem course_locate_described {l : Label} (hs : Search c t s (.ok (some l)))
    (hm : (t.makeDirectories c.mountPoint).1 = .ok ()) {s' : List Started}
    {r : Except Completion (Except RunError Detection)} {t' : FileTree}
    (hrest : course ((ofConfig c).perform (do
      let location ← describe l
      return .found location (← ExceptT.lift (mount c.mountPoint location)))) (withMountPoint c t) =
        ⟨s', r, t'⟩) :
    course ((ofConfig c).perform (locate c.mountPoint)) t = ⟨s ++ s', r, t'⟩ := by
  have hmade := (ofConfig c).course_makeMountPoint c.mountPoint t
  rw [hm] at hmade
  exact course_locate_found hs ((ofConfig c).course_perform_bind_ok hmade hrest)

theorem course_describe_deviceFails {l : Label} {e : RunError} (hd : DeviceAsked c t l s (.error e)) :
    course ((ofConfig c).perform (describe l)) t = ⟨s, .ok (.error e), t⟩ := by
  rw [describe]
  exact (ofConfig c).course_perform_bind_error hd.course_eq

variable {s₁ s₂ : List Started} {l : Label} {device : String}

theorem course_describe_typeFails {e : RunError} (hd : DeviceAsked c t l s₁ (.ok device))
    (ht : TypeAsked c t l s₂ (.error e)) :
    course ((ofConfig c).perform (describe l)) t = ⟨s₁ ++ s₂, .ok (.error e), t⟩ := by
  rw [describe]
  exact (ofConfig c).course_perform_bind_ok hd.course_eq
    ((ofConfig c).course_perform_bind_error ht.course_eq)

theorem course_describe {fsType : FilesystemType} (hd : DeviceAsked c t l s₁ (.ok device))
    (ht : TypeAsked c t l s₂ (.ok fsType)) :
    course ((ofConfig c).perform (describe l)) t = ⟨s₁ ++ s₂, .ok (.ok ⟨l, device, fsType⟩), t⟩ := by
  rw [describe]
  refine (ofConfig c).course_perform_bind_ok hd.course_eq ?_
  rw [(ofConfig c).perform_bind]
  exact course_bind_last ht.course_eq rfl

/-- **The drive is found and mounted**, whatever comes of the mount. -/
theorem course_locate_mounted {fsType : FilesystemType} (hs : Search c t s (.ok (some l)))
    (hm : (t.makeDirectories c.mountPoint).1 = .ok ())
    (hd : DeviceAsked c (withMountPoint c t) l s₁ (.ok device))
    (ht : TypeAsked c (withMountPoint c t) l s₂ (.ok fsType)) :
    ∃ outcome, course ((ofConfig c).perform (locate c.mountPoint)) t =
      ⟨s ++ s₁ ++ s₂ ++ (mounting c (withMountPoint c t) device fsType).started,
        .ok (.ok (.found ⟨l, device, fsType⟩ outcome)), withMountPoint c t⟩ := by
  obtain ⟨outcome, hmount⟩ :=
    (ofConfig c).course_mount (withMountPoint c t) c.mountPoint ⟨l, device, fsType⟩
  rw [mounting_eq] at hmount
  refine ⟨outcome, ?_⟩
  have hfound : course ((ofConfig c).perform (do
      return Detection.found ⟨l, device, fsType⟩
        (← ExceptT.lift (mount c.mountPoint ⟨l, device, fsType⟩)))) (withMountPoint c t) =
      ⟨(mounting c (withMountPoint c t) device fsType).started,
        .ok (.ok (.found ⟨l, device, fsType⟩ outcome)), withMountPoint c t⟩ := by
    rw [(ofConfig c).perform_bind]
    exact course_bind_last hmount rfl
  have hlocate := course_locate_described hs hm
    ((ofConfig c).course_perform_bind_ok (course_describe hd ht) hfound)
  simp only [← List.append_assoc] at hlocate
  exact hlocate

/-! ## The run as a whole -/

variable {variant : Variant} {forwarded : List String}

theorem course_runVariant_fails {e : RunError} {t' : FileTree}
    (hl : course ((ofConfig c).perform (locate c.mountPoint)) t = ⟨s, .ok (.error e), t'⟩) :
    course ((ofConfig c).perform (runVariant variant c forwarded)) t =
      ⟨s, .ok (.error e), t'⟩ := by
  rw [runVariant, (ofConfig c).course_perform_bind_look ((ofConfig c).course_perform_say _ _ t)]
  refine (ofConfig c).course_perform_bind_error ?_
  rw [planVariant, (ofConfig c).course_perform_bind_look ((ofConfig c).course_perform_say _ _ t)]
  exact (ofConfig c).course_perform_bind_error hl

/-- The run goes on from what was found to the hand-off. -/
theorem course_runVariant_planned {detection : Detection} {t' : FileTree} {s' : List Started}
    {r : Except Completion (Except RunError Nat)}
    (hl : course ((ofConfig c).perform (locate c.mountPoint)) t = ⟨s, .ok (.ok detection), t'⟩)
    (he : course ((ofConfig c).perform
      (execute (Handoff.plan variant detection c.downstream forwarded))) t' = ⟨s', r, t'⟩) :
    course ((ofConfig c).perform (runVariant variant c forwarded)) t = ⟨s ++ s', r, t'⟩ := by
  rw [runVariant, (ofConfig c).course_perform_bind_look ((ofConfig c).course_perform_say _ _ t)]
  refine (ofConfig c).course_perform_bind_ok ?_ he
  rw [planVariant, (ofConfig c).course_perform_bind_look ((ofConfig c).course_perform_say _ _ t),
    (ofConfig c).perform_bind]
  refine course_bind_last hl ?_
  dsimp only
  cases detection.isFound <;> rfl

theorem course_execute_delegate (u : Utilities) (i : Invocation) (t : FileTree) :
    course (u.perform (execute (.delegate i))) t =
      ⟨(u.ending t i).started, (u.ending t i).result, t⟩ := by
  rw [execute, u.course_perform_bind_look (u.course_perform_say _ _ t)]
  exact u.course_performLaunch i t

theorem toolFlags_eq (c : Config) (variant : Variant) (found : Bool) :
    toolFlags c variant found =
      Handoff.driveFlags variant found ++ c.downstream.installFlags := by
  cases variant <;> cases found <;>
    simp [toolFlags, Handoff.driveFlags, Downstream.installFlags, Downstream.flag]

/-- The command line of the last tool is the one that is planned. -/
theorem lastTool_eq (c : Config) (variant : Variant) (found : Bool) (forwarded : List String) :
    lastTool c variant found forwarded =
      { program := c.downstream.program
        args := Handoff.driveFlags variant found ++ c.downstream.installFlags ++ forwarded
        mode := Handoff.mode variant } := by
  cases variant <;> simp only [lastTool, toolFlags_eq, Handoff.mode]

theorem plan_notFound (c : Config) (forwarded : List String) :
    Handoff.plan .general .notFound c.downstream forwarded =
      .delegate (lastTool c .general false forwarded) := by
  rw [lastTool_eq]
  rfl

/-- With a drive there is a hand-off, however its mount went. -/
theorem plan_found (c : Config) (variant : Variant) (location : Location) (outcome : MountOutcome)
    (forwarded : List String) :
    Handoff.plan variant (.found location outcome) c.downstream forwarded =
      .delegate (lastTool c variant true forwarded) := by
  rw [lastTool_eq]
  cases variant <;> rfl

/-- **A trace is the course of the run.** -/
theorem Trace.course_eq {r : Except Completion (Except RunError Nat)} {t' : FileTree}
    (h : Trace c t variant forwarded s r t') :
    course ((ofConfig c).perform (runVariant variant c forwarded)) t = ⟨s, r, t'⟩ := by
  cases h with
  | searchFails hs => exact course_runVariant_fails (course_locate_fails hs)
  | skipped hs hv =>
      subst hv
      have hrun : course ((ofConfig c).perform (runVariant .early c forwarded)) t =
          ⟨s ++ [], .ok (.ok 0), t⟩ :=
        course_runVariant_planned (course_locate_absent hs) rfl
      rw [List.append_nil] at hrun
      exact hrun
  | withoutDrive hs hv =>
      subst hv
      refine course_runVariant_planned (course_locate_absent hs) ?_
      rw [plan_notFound]
      exact course_execute_delegate (ofConfig c) _ t
  | mountPointFails hs hm => exact course_runVariant_fails (course_locate_mountPointFails hs hm)
  | deviceFails hs hm hd =>
      exact course_runVariant_fails (course_locate_described hs hm
        ((ofConfig c).course_perform_bind_error (course_describe_deviceFails hd)))
  | typeFails hs hm hd ht =>
      have hlocate := course_locate_described hs hm
        ((ofConfig c).course_perform_bind_error (course_describe_typeFails hd ht))
      rw [← List.append_assoc] at hlocate
      exact course_runVariant_fails hlocate
  | withDrive hs hm hd ht =>
      obtain ⟨outcome, hlocate⟩ := course_locate_mounted hs hm hd ht
      refine course_runVariant_planned hlocate ?_
      -- the plan asks whether there is a drive, not how the mount went
      rw [plan_found]
      exact course_execute_delegate (ofConfig c) _ _

theorem exists_trace (c : Config) (t : FileTree) (variant : Variant) (forwarded : List String) :
    ∃ s r t', Trace c t variant forwarded s r t' := by
  obtain ⟨s, found, hs⟩ := exists_search c t
  match found, variant with
  | .error e, _ => exact ⟨_, _, _, .searchFails hs⟩
  | .ok none, .early => exact ⟨_, _, _, .skipped hs rfl⟩
  | .ok none, .general => exact ⟨_, _, _, .withoutDrive hs rfl⟩
  | .ok (some l), _ =>
      cases hm : (t.makeDirectories c.mountPoint).1 with
      | error e => exact ⟨_, _, _, .mountPointFails hs hm⟩
      | ok _ =>
          obtain ⟨s₁, device?, hd⟩ := exists_deviceAsked c (withMountPoint c t) l
          obtain ⟨s₂, type?, ht⟩ := exists_typeAsked c (withMountPoint c t) l
          match device?, type? with
          | .error e, _ => exact ⟨_, _, _, .deviceFails hs hm hd⟩
          | .ok device, .error e => exact ⟨_, _, _, .typeFails hs hm hd ht⟩
          | .ok device, .ok fsType => exact ⟨_, _, _, .withDrive hs hm hd ht⟩

end

/-- **The trace of a run.**  For every configuration, machine, occasion and list of forwarded arguments
there is exactly one trace; its programs are those that the run starts, in order, its result is that of
the run, the machine has noted the stand-ins among its programs, and its tree is the one that is left. -/
theorem runVariant_trace (c : Config) (m : Machine) (variant : Variant) (forwarded : List String) :
    ∃ s r t, (∀ s' r' t', Trace c m.tree variant forwarded s' r' t' ↔ s' = s ∧ r' = r ∧ t' = t) ∧
      (course ((ofConfig c).perform (runVariant variant c forwarded)) m.tree).started = s ∧
      (m.perform ((ofConfig c).perform (runVariant variant c forwarded))).1 = r ∧
      (m.perform ((ofConfig c).perform (runVariant variant c forwarded))).2.calls =
        m.calls ++ s.filterMap Started.call? ∧
      (m.perform ((ofConfig c).perform (runVariant variant c forwarded))).2.tree = t := by
  obtain ⟨s, r, t, htrace⟩ := exists_trace c m.tree variant forwarded
  have hcourse := htrace.course_eq
  obtain ⟨hresult, htree, hcalls⟩ :=
    m.perform_eq_course ((ofConfig c).perform (runVariant variant c forwarded))
  rw [hcourse] at hresult htree hcalls
  refine ⟨s, r, t, fun s' r' t' => ⟨?_, ?_⟩, congrArg Course.started hcourse, hresult, hcalls, htree⟩
  -- two traces are the course of one run, which is a function
  · intro htrace'
    have hcourse' := htrace'.course_eq
    rw [hcourse] at hcourse'
    cases hcourse'
    exact ⟨rfl, rfl, rfl⟩
  · rintro ⟨rfl, rfl, rfl⟩
    exact htrace

/-! ## A run with a drive, and one that is cut off -/

/-- A tree with the programs of a run. -/
def runTree (probe tool : StandIn) : FileTree :=
  { root :=
      [("bin", .directory
        [("blkid", .program 0o755 probe), ("mount", .program 0o755 ⟨[], Shell.quiet 0⟩),
          ("glean", .program 0o755 tool)])]
    workingDirectory := [] }

/-- What the probe utility leaves when it prints a text. -/
def printed (text : String) : Completion :=
  { Shell.quiet 0 with stdout := Text.Utf8.encode text.toList }

/-- A probe utility that knows a drive by the label in capitals. -/
def capitalsProbe : StandIn where
  rules :=
    [("-t LABEL=CONFIG-2", Shell.quiet 0), ("-L CONFIG-2", printed "\n /dev/sr0\n"),
      ("-t LABEL=CONFIG-2 -s TYPE -o value", printed "vfat\n")]
  fallback := Shell.quiet 2

/-- A probe utility that finds every label, and prints blank lines only. -/
def blankProbe : StandIn where
  rules := []
  fallback := printed " \n\n"

/-- Settings with flags for the tool. -/
def runSettings : Config :=
  { searchPath := ["bin"], mountPoint := "mnt", downstream := { useNm := true, extraArgs := ["-x"] } }

set_option maxRecDepth 10000 in
/-- A run that finds a drive starts six programs.  One whose drive has no device is cut off behind the
second. -/
theorem capitals_traced :
    (∃ s t, Trace runSettings (runTree capitalsProbe ⟨[], Shell.quiet 3⟩) .general ["eth0"] s
        (.ok (.ok 3)) t ∧
      s.filterMap Started.call? =
        [⟨"bin/blkid", ["-t", "LABEL=config-2"], "bin"⟩, ⟨"bin/blkid", ["-t", "LABEL=CONFIG-2"], "bin"⟩,
          ⟨"bin/blkid", ["-L", "CONFIG-2"], "bin"⟩,
          ⟨"bin/blkid", ["-t", "LABEL=CONFIG-2", "-s", "TYPE", "-o", "value"], "bin"⟩,
          ⟨"bin/mount", ["-t", "vfat", "-o", "umask=0077", "/dev/sr0", "mnt"], "bin"⟩,
          ⟨"bin/glean", ["--ssh", "--hostname", "--use-nm", "-x", "eth0"], "bin"⟩]) ∧
      ∃ s t, Trace runSettings (runTree blankProbe ⟨[], Shell.quiet 3⟩) .early [] s
          (.ok (.error (.probe "config-2" .noDevice))) t ∧
        s.filterMap Started.call? =
          [⟨"bin/blkid", ["-t", "LABEL=config-2"], "bin"⟩, ⟨"bin/blkid", ["-L", "config-2"], "bin"⟩] := by
  have htraced : ∀ (t : FileTree) (variant : Variant) (forwarded : List String)
      (r : Except Completion (Except RunError Nat)) (calls : List Call),
      (({ tree := t } : Machine).perform
        ((ofConfig runSettings).perform (runVariant variant runSettings forwarded))).1 = r →
      (({ tree := t } : Machine).perform
        ((ofConfig runSettings).perform (runVariant variant runSettings forwarded))).2.calls = calls →
      ∃ s t', Trace runSettings t variant forwarded s r t' ∧ s.filterMap Started.call? = calls := by
    intro t variant forwarded r calls hr hc
    obtain ⟨s, r', t', hunique, -, hresult, hcalls, -⟩ :=
      runVariant_trace runSettings { tree := t } variant forwarded
    exact ⟨s, t', (hunique s r t').mpr ⟨rfl, hr.symm.trans hresult, rfl⟩, hcalls.symm.trans hc⟩
  exact ⟨htraced _ _ _ _ _ (by decide +kernel) (by decide +kernel),
    htraced _ _ _ _ _ (by decide +kernel) (by decide +kernel)⟩

end ConfigDrive.Run
