/-
# ConfigDrive.Proofs.CommandLine.Forwarding — what becomes of the arguments after the command.

After `early` or `run` no argument is looked at any more: options, help flags and names of commands are
forwarded to the tool like any other text (`parse_run`), and the tool is started with them at the end of
its arguments, unless something before it fails (`onMachine_forwards`).  The one exception is a `--` that
comes first, which is taken for the end of the options of this program although there are none to end; the
tool does not get it (`terminator_is_dropped`).
-/
import ConfigDrive.CommandLine.Program
import ConfigDrive.Proofs.Config.Loading
import ConfigDrive.Proofs.Run.Confinement
import ConfigDrive.Proofs.Run.Trace

namespace ConfigDrive.CommandLine

open Host
open ConfigDrive.Drive (FilesystemType Label)
open ConfigDrive.Run (DeviceAsked Search Trace TypeAsked lastTool lastTool_eq mounting withMountPoint)
open ConfigDrive.Utilities (ofConfig)

/-! ## Reading the arguments -/

/-- The name of the command that asks for a run. -/
def runName : Variant → String
  | .early => "early"
  | .general => "run"

/-- The command that asks for a run. -/
def runCommand (variant : Variant) (forwarded : List String) : Command :=
  match variant with
  | .early => .early forwarded
  | .general => .run forwarded

/-- The program with a settings file, a run to perform, and further arguments. -/
def runArguments (path : String) (variant : Variant) (further : List String) : List String :=
  "--config" :: path :: runName variant :: further

/-- **After the command everything is forwarded**, but a terminator that comes first.  The path may be
any word. -/
theorem parse_run {path : String} (hword : shape path = .word) (hne : path.isEmpty = false)
    (variant : Variant) (further : List String) :
    parse (runArguments path variant further) =
      .perform { config := some path } (runCommand variant (forwarded further)) := by
  have hconfig : shape "--config" = .long "config" none := by decide +kernel
  have hname : shape (runName variant) = .word := by
    cases variant <;> decide +kernel
  have hset : ({} : Options).setConfig path = .ok { config := some path } := by
    rw [Options.setConfig, hne]
    rfl
  have hcomplete : ∀ command, complete { pending := .value path } command =
      .ok (.perform { config := some path } command) := by
    intro command
    rw [complete, State.settle]
    dsimp only
    rw [hset]
    rfl
  have hread : readArguments {} (runArguments path variant further) =
      readCommand { pending := .value path } (runName variant) further := by
    rw [runArguments, readArguments, hconfig]
    show readArguments { pending := .awaiting } (path :: runName variant :: further) = _
    rw [readArguments, hword]
    show readArguments { pending := .value path } (runName variant :: further) = _
    rw [readArguments, hname]
  have hcommand : readCommand { pending := .value path } (runName variant) further =
      complete { pending := .value path } (runCommand variant (forwarded further)) := by
    cases variant <;> rfl
  rw [parse, hread, hcommand, hcomplete]

/-- A terminator that comes first is the only thing that is left out. -/
theorem forwarded_eq (further : List String) :
    further = "--" :: forwarded further ∨
      further.head? ≠ some "--" ∧ forwarded further = further := by
  unfold forwarded
  split
  · exact .inl rfl
  · next hnot =>
      refine .inr ⟨fun hhead => ?_, rfl⟩
      obtain ⟨rest, hrest⟩ := List.head?_eq_some_iff.mp hhead
      exact hnot rest hrest

/-! ## Up to the hand-off -/

section

variable (c : Config) (t : FileTree)

/-- Nothing fails before the hand-off: whether a drive was found, the programs that were started, and the
tree at the hand-off. -/
inductive Ready : Bool → List Started → FileTree → Prop
  | withoutDrive {s : List Started} (hs : Search c t s (.ok none)) : Ready false s t
  | withDrive {s s₁ s₂ : List Started} {l : Label} {device : String} {fsType : FilesystemType}
      (hs : Search c t s (.ok (some l))) (hm : (t.makeDirectories c.mountPoint).1 = .ok ())
      (hd : DeviceAsked c (withMountPoint c t) l s₁ (.ok device))
      (ht : TypeAsked c (withMountPoint c t) l s₂ (.ok fsType)) :
      Ready true (s ++ s₁ ++ s₂ ++ (mounting c (withMountPoint c t) device fsType).started)
        (withMountPoint c t)

variable {c t} {found : Bool} {s : List Started} {t' : FileTree} {variant : Variant}
  {forwarded : List String}

/-- A run that is ready goes on to its tool.  Early there must be a drive. -/
theorem Ready.trace (h : Ready c t found s t') (hdrive : variant = .early → found = true) :
    Trace c t variant forwarded
      (s ++ ((ofConfig c).ending t' (lastTool c variant found forwarded)).started)
      ((ofConfig c).ending t' (lastTool c variant found forwarded)).result t' := by
  cases h with
  | withDrive hs hm hd ht => exact .withDrive hs hm hd ht
  | withoutDrive hs =>
      refine .withoutDrive hs ?_
      cases variant with
      | early => exact nomatch hdrive rfl
      | general => rfl

/-- The command for a run has the course of the run, with the status for a result. -/
theorem course_runCommand {r : Except Completion (Except RunError Nat)}
    (h : course ((ofConfig c).perform (Run.runVariant variant c forwarded)) t = ⟨s, r, t'⟩) :
    course ((ofConfig c).perform ((runCommand variant forwarded).perform c)) t =
      ⟨s, r.map (·.map fun status => ⟨status, ""⟩), t'⟩ := by
  have hcommand : (runCommand variant forwarded).perform c =
      Run.runVariant variant c forwarded >>= fun status => pure ⟨status, ""⟩ := by
    cases variant <;> rfl
  rw [hcommand]
  rcases r with completion | e | status
  · rw [Utilities.perform_bind, course_bind, h]
    rfl
  · exact Utilities.course_perform_bind_error _ h
  · exact (Utilities.course_perform_bind_ok _ h (course_pure _ t')).trans (by rw [List.append_nil]; rfl)

/-- What is left when the last tool ran: its own end in the place of this process, or its status. -/
def handedOff (variant : Variant) (completion : Completion) :
    Except Completion (Except RunError Outcome) :=
  match variant with
  | .early => .error completion
  | .general => .ok (.ok ⟨completion.status.exitCode, ""⟩)

/-- A run whose tool is started. -/
theorem Ready.course (h : Ready c t found s t') (hdrive : variant = .early → found = true)
    {tool : Started}
    (htool : attempt t' c.allowList (Handoff.mode variant == .replace) c.downstream.program
      (lastTool c variant found forwarded).args = .ran tool) :
    ∃ t'', course ((ofConfig c).perform ((runCommand variant forwarded).perform c)) t =
      ⟨s ++ [tool], handedOff variant tool.image.completion, t''⟩ := by
  have htrace : Trace c t variant forwarded _ _ _ := h.trace hdrive
  have hcourse := htrace.course_eq
  have hmode : (lastTool c variant found forwarded).mode = Handoff.mode variant := by
    rw [lastTool_eq]
  have hran : attempt t' (ofConfig c).searchPath
      ((lastTool c variant found forwarded).mode == .replace)
      (lastTool c variant found forwarded).program (lastTool c variant found forwarded).args =
        .ran tool := by
    rw [hmode]
    exact htool
  rw [Utilities.ending_of_ran hran, hmode] at hcourse
  refine ⟨t', (course_runCommand hcourse).trans ?_⟩
  cases variant <;> rfl

end

/-! ## The whole program -/

/-- The settings are read, whatever comes of it, and nothing else happens. -/
theorem course_settings {m : Machine} {o : Options} {r : Except RunError Config}
    (h : (m.perform o.loader.load.run).1 = .ok r) :
    course o.loader.load.run m.tree = ⟨[], .ok r, m.tree⟩ := by
  rw [(m.perform_eq_course _).1] at h
  rw [Config.Loader.course_load] at h ⊢
  rw [Except.ok.inj h]

/-- With settings, what comes of the program is what comes of the command. -/
theorem course_perform {m : Machine} {o : Options} {c : Config}
    (h : (m.perform o.loader.load.run).1 = .ok (.ok c)) (command : Command) :
    course (perform o command) m.tree = course ((ofConfig c).perform (command.perform c)) m.tree :=
  course_bind_look (course_settings h)

/-- How the program ends when the last tool has ended: as the tool, or with its exit status. -/
def endOf (variant : Variant) (completion : Completion) : WaitStatus :=
  match variant with
  | .early => completion.status
  | .general => .exited completion.status.exitCode

theorem endingOf_handedOff (o : Options) (variant : Variant) (completion : Completion) (m : Machine) :
    (endingOf o (handedOff variant completion) m).error = none ∧
      (endingOf o (handedOff variant completion) m).status = endOf variant completion := by
  cases variant <;> exact ⟨rfl, rfl⟩

theorem onMachine_perform {args : List String} {o : Options} {command : Command}
    (h : parse args = .perform o command) (m : Machine) :
    onMachine args m =
      (endingOf o (m.perform (perform o command)).1 (m.perform (perform o command)).2,
        (m.perform (perform o command)).2) := by
  rw [onMachine, h]

/-- **Arguments are forwarded.**  If the settings are read, nothing fails before the hand-off and the tool
can be started, then it is the last program that is started, and the program ends as it does.  Its
arguments are the flags for the drive, those of the settings, and then the further arguments one by one;
only a terminator that comes first among these is left out. -/
theorem onMachine_forwards (m : Machine) (path : String) (variant : Variant) (further : List String)
    {c : Config} {found : Bool} {s : List Started} {t' : FileTree} {tool : Started}
    (hword : shape path = .word) (hne : path.isEmpty = false)
    (hsettings : (m.perform ({ config := some path } : Options).loader.load.run).1 = .ok (.ok c))
    (hready : Ready c m.tree found s t') (hdrive : variant = .early → found = true)
    (htool : attempt t' c.allowList (Handoff.mode variant == .replace) c.downstream.program
      (lastTool c variant found (forwarded further)).args = .ran tool) :
    let ended := onMachine (runArguments path variant further) m
    ended.2.calls = m.calls ++ (s ++ [tool]).filterMap Started.call? ∧
      ended.1.error = none ∧
      ended.1.status = endOf variant tool.image.completion ∧
      (further.head? ≠ some "--" → tool.command.args =
        Handoff.driveFlags variant found ++ c.downstream.installFlags ++ further) ∧
      (∀ rest, further = "--" :: rest → tool.command.args =
        Handoff.driveFlags variant found ++ c.downstream.installFlags ++ rest) := by
  have hargs : tool.command.args =
      Handoff.driveFlags variant found ++ c.downstream.installFlags ++ forwarded further := by
    have hmem : tool ∈ (attempt t' c.allowList (Handoff.mode variant == .replace) c.downstream.program
        (lastTool c variant found (forwarded further)).args).started := by
      rw [htool]
      exact List.mem_singleton_self tool
    rw [lastTool_eq] at hmem
    exact (confined_of_mem_attempt (r := ⟨c.downstream.program, _, _⟩) hmem).args_eq
  obtain ⟨t'', hcourse⟩ := hready.course hdrive htool
  have hrun := onMachine_perform (parse_run hword hne variant further) m
  have hperform := m.perform_eq_course
    (perform { config := some path } (runCommand variant (forwarded further)))
  rw [course_perform hsettings, hcourse] at hperform
  generalize m.perform (perform _ _) = performed at hrun hperform
  obtain ⟨result, m'⟩ := performed
  obtain ⟨hresult, -, hcalls⟩ := hperform
  dsimp only at hresult hcalls hrun
  subst hresult
  rw [hrun]
  obtain ⟨herror, hstatus⟩ :=
    endingOf_handedOff { config := some path } variant tool.image.completion m'
  refine ⟨hcalls, herror, hstatus, fun hhead => ?_, fun rest hrest => ?_⟩
  · rcases forwarded_eq further with heq | ⟨-, heq⟩
    · rw [heq] at hhead
      exact absurd rfl hhead
    · rw [hargs, heq]
  · rw [hargs, hrest]
    rfl

/-! ## A drive, and none -/

/-- A tree with a settings file, the programs of a run, and the answers of the probe utility. -/
def forwardingTree (probe : StandIn) : FileTree :=
  { root :=
      [("config.yaml", Config.Loader.textFile "search_path: [bin]\nmount_point: mnt\n"),
        ("bin", .directory
          [("blkid", .program 0o755 probe), ("mount", .program 0o755 ⟨[], Shell.quiet 0⟩),
            ("glean", .program 0o755 ⟨[], Shell.quiet 3⟩)])]
    workingDirectory := [] }

/-- A probe utility that knows a drive. -/
def knowingProbe : StandIn where
  rules :=
    [("-t LABEL=config-2", Shell.quiet 0),
      ("-L config-2", { Shell.quiet 0 with stdout := Text.Utf8.encode "/dev/sr0\n".toList }),
      ("-t LABEL=config-2 -s TYPE -o value",
        { Shell.quiet 0 with stdout := Text.Utf8.encode "iso9660\n".toList })]
  fallback := Shell.quiet 2

/-- A probe utility that knows none. -/
def emptyProbe : StandIn where
  rules := []
  fallback := Shell.quiet 2

/-- The settings in the file. -/
def forwardingSettings : Config :=
  { searchPath := ["bin"], mountPoint := "mnt" }

set_option maxRecDepth 10000 in
/-- Arguments that look like options of this program, and one that ends options, are forwarded. -/
theorem options_are_forwarded :
    ∃ before, (onMachine (runArguments "config.yaml" .early ["-h", "--config", "--", "run"])
        { tree := forwardingTree knowingProbe }).2.calls = before ++
      [⟨"bin/glean", ["--ssh", "--hostname", "--skip-network", "-h", "--config", "--", "run"], "bin"⟩] := by
  let c := forwardingSettings
  let t := forwardingTree knowingProbe
  have hsearch : ((ofConfig c).labelReply t .lower).answer = .ok true := by decide +kernel
  have hmake : (t.makeDirectories c.mountPoint).1 = .ok () := by decide +kernel
  have hdevice : ((ofConfig c).deviceReply (withMountPoint c t) .lower).answer = .ok "/dev/sr0" := by
    decide +kernel
  have htype : ((ofConfig c).typeReply (withMountPoint c t) .lower).answer = .ok .iso9660 := by
    decide +kernel
  have hstarted : (attempt (withMountPoint c t) c.allowList true "glean"
      ["--ssh", "--hostname", "--skip-network", "-h", "--config", "--", "run"]).started.map
        Started.call? =
      [some ⟨"bin/glean",
        ["--ssh", "--hostname", "--skip-network", "-h", "--config", "--", "run"], "bin"⟩] := by
    decide +kernel
  obtain ⟨tool, htool, hcall⟩ := Attempt.exists_ran hstarted
  have hcalls := (onMachine_forwards { tree := t } "config.yaml" .early ["-h", "--config", "--", "run"]
    (by decide +kernel) (by decide +kernel) (by decide +kernel)
    (.withDrive (.lower (hsearch ▸ Run.labelAsked_reply c t .lower)) hmake
      (hdevice ▸ Run.deviceAsked_reply c (withMountPoint c t) .lower)
      (htype ▸ Run.typeAsked_reply c (withMountPoint c t) .lower)) (fun _ => rfl) htool).1
  rw [hcalls, List.filterMap_append, List.filterMap_cons, hcall, ← List.append_assoc]
  exact ⟨_, rfl⟩

set_option maxRecDepth 10000 in
/-- **A terminator that comes first is dropped**, and the tool does not get it. -/
theorem terminator_is_dropped :
    (onMachine (runArguments "config.yaml" .general ["--", "eth0"])
        { tree := forwardingTree emptyProbe }).2.calls =
      [⟨"bin/blkid", ["-t", "LABEL=config-2"], "bin"⟩, ⟨"bin/blkid", ["-t", "LABEL=CONFIG-2"], "bin"⟩,
        ⟨"bin/glean", ["eth0"], "bin"⟩] := by
  decide +kernel

end ConfigDrive.CommandLine
