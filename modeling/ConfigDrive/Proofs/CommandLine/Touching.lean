/-
# ConfigDrive.Proofs.CommandLine.Touching — a command touches nothing but the mount point.

Whatever becomes of a command, the tree has afterwards all that it had before, and what is new are
directories along the configured mount point (`touches_only_mountPoint`).  Nothing at all is new after
`detect`, without settings, and when the search for a label fails or finds none.  On the other hand, where
a run comes to ask about the drive, the mount point is a directory.
-/
import ConfigDrive.Proofs.CommandLine.Forwarding
import ConfigDrive.Proofs.FileTree.Making
import ConfigDrive.Proofs.Run.Preparing

namespace ConfigDrive.CommandLine

open Host
open ConfigDrive.FileTree (GrowsAlong)
open ConfigDrive.Run (Prepares Search)
open ConfigDrive.Utilities (ofConfig)

variable {c : Config} {t : FileTree} {s : List Started}

/-! ## Commands -/

/-- `detect` makes no directory. -/
theorem detect_makes_nothing (c : Config) :
    (Command.detect.perform c).run.AsksOnly fun q => q.isMaking = false := by
  refine (Run.detect_makes_nothing c).bindE fun report => ?_
  exact trivial

/-- A run prepares the mount point, and its command asks nothing else. -/
theorem prepares_runCommand (c : Config) (variant : Variant) (forwarded : List String) :
    Prepares c.mountPoint ((runCommand variant forwarded).perform c).run := by
  have hrun := Run.prepares_runVariant variant c forwarded
  cases variant with
  | early => exact hrun.before fun _ => trivial
  | general => exact hrun.before fun _ => trivial

theorem eq_detect_or_run (command : Command) :
    command = .detect ∨ ∃ variant forwarded, command = runCommand variant forwarded := by
  cases command with
  | early forwarded => exact .inr ⟨.early, forwarded, rfl⟩
  | run forwarded => exact .inr ⟨.general, forwarded, rfl⟩
  | detect => exact .inl rfl

/-! ## The tree afterwards -/

/-- The hand-off leaves the tree as it is. -/
theorem exists_course_execute (u : Utilities) (h : Handoff) (t : FileTree) :
    ∃ s r, course (u.perform (Run.execute h)) t = ⟨s, r, t⟩ := by
  have hstate := (u.account_makes_nothing
    ((Run.execute_asks_aside h).mono fun q hq => hq.1) t).1
  rw [u.course_perform, hstate]
  exact ⟨_, _, rfl⟩

/-- **Without a label to go on from**, a run leaves the tree as it is. -/
theorem exists_course_without_label {found : Except RunError (Option Drive.Label)}
    (hs : Search c t s found) (h : ∀ l, found ≠ .ok (some l)) (variant : Variant)
    (forwarded : List String) :
    ∃ s' r, course ((ofConfig c).perform (Run.runVariant variant c forwarded)) t = ⟨s', r, t⟩ := by
  rcases found with e | _ | l
  · exact ⟨s, _, Run.course_runVariant_fails (Run.course_locate_fails hs)⟩
  · obtain ⟨s', r, hexecute⟩ := exists_course_execute (ofConfig c)
      (Handoff.plan variant .notFound c.downstream forwarded) t
    exact ⟨s ++ s', r, Run.course_runVariant_planned (Run.course_locate_absent hs) hexecute⟩
  · exact absurd rfl (h l)

/-- The tree after a command is the one of its account. -/
theorem account_state (c : Config) (command : Command) (t : FileTree) :
    ((ofConfig c).account (command.perform c).run t).state =
      (course ((ofConfig c).perform (command.perform c)) t).tree := by
  rw [(ofConfig c).course_perform]

theorem account_state_without_label {found : Except RunError (Option Drive.Label)}
    (hs : Search c t s found) (h : ∀ l, found ≠ .ok (some l)) (command : Command) :
    ((ofConfig c).account (command.perform c).run t).state = t := by
  rcases eq_detect_or_run command with rfl | ⟨variant, forwarded, rfl⟩
  · exact ((ofConfig c).account_makes_nothing (detect_makes_nothing c) t).1
  · obtain ⟨s', r, hrun⟩ := exists_course_without_label hs h variant forwarded
    rw [account_state, course_runCommand hrun]

theorem growsAlong_account (c : Config) (command : Command) (t : FileTree) :
    GrowsAlong c.mountPoint t ((ofConfig c).account (command.perform c).run t).state := by
  rcases eq_detect_or_run command with rfl | ⟨variant, forwarded, rfl⟩
  · rw [((ofConfig c).account_makes_nothing (detect_makes_nothing c) t).1]
    exact .refl _ t
  · have hprepared := (ofConfig c).prepared_account (prepares_runCommand c variant forwarded) t
    rcases hprepared.state_eq with hstate | hstate
    · rw [hstate]
      exact .refl _ t
    · rw [hstate]
      exact (t.makeDirectories_made c.mountPoint).growsAlong

/-- **Where a run asks about the drive, the mount point is a directory.** -/
theorem isDirectory_of_isAboutDrive (hne : c.mountPoint ≠ "") {variant : Variant}
    {forwarded : List String} {t' : FileTree} {q : Run.Question}
    (hmem : (t', q) ∈ ((ofConfig c).account ((runCommand variant forwarded).perform c).run t).moments)
    (hdrive : q.isAboutDrive = true) : t'.isDirectory c.mountPoint = true := by
  have hprepared := (ofConfig c).prepared_account (prepares_runCommand c variant forwarded) t
  obtain ⟨hok, rfl⟩ := hprepared.made t' q hmem hdrive
  exact (t.makeDirectories_made c.mountPoint).isDirectory hok hne

/-! ## The program -/

/-- Without settings there is no command, and nothing is changed. -/
theorem course_perform_error {m : Machine} {o : Options} {e : RunError}
    (h : (m.perform o.loader.load.run).1 = .ok (.error e)) (command : Command) :
    (course (perform o command) m.tree).tree = m.tree :=
  congrArg Course.tree (course_bind_look (course_settings h))

/-- **A command touches nothing but the mount point.**  For all settings, commands with their forwarded
arguments and machines, however the command ends: everything that was in the tree is still there, and what
is new are directories that prefixes of the mount point lead to.  Nothing is new after `detect`, and when
the search for a label fails or finds none.  The programs of the command are those of its moments;
at every moment at which a run asks for the device or the type of the drive or has it mounted, the mount
point is a directory, unless it is the empty path.  The program changes the tree as the command does, and
not at all if the settings cannot be read. -/
theorem touches_only_mountPoint (c : Config) (command : Command) (m : Machine) :
    let account := (ofConfig c).account (command.perform c).run m.tree
    let after := (m.perform ((ofConfig c).perform (command.perform c))).2
    GrowsAlong c.mountPoint m.tree after.tree ∧
      (command = .detect → after.tree = m.tree) ∧
      (∀ s e, Search c m.tree s (.error e) → after.tree = m.tree) ∧
      (∀ s, Search c m.tree s (.ok none) → after.tree = m.tree) ∧
      after.calls = m.calls ++ (account.moments.flatMap fun moment =>
        (ofConfig c).startedAt moment.1 moment.2).filterMap Started.call? ∧
      (command ≠ .detect → c.mountPoint ≠ "" →
        ∀ t q, (t, q) ∈ account.moments → q.isAboutDrive = true →
          t.isDirectory c.mountPoint = true) ∧
      ∀ o args, parse args = .perform o command →
        ((m.perform o.loader.load.run).1 = .ok (.ok c) → (onMachine args m).2.tree = after.tree) ∧
        ∀ e, (m.perform o.loader.load.run).1 = .ok (.error e) →
          (onMachine args m).2.tree = m.tree := by
  intro account after
  obtain ⟨-, htree, hcalls⟩ := m.perform_eq_course ((ofConfig c).perform (command.perform c))
  have hstate : after.tree = account.state := htree.trans (account_state c command m.tree).symm
  refine ⟨?grows, ?detects, ?fails, ?absent, ?calls, ?directory, ?program⟩
  case grows =>
    rw [hstate]
    exact growsAlong_account c command m.tree
  case detects =>
    rintro rfl
    rw [hstate]
    exact ((ofConfig c).account_makes_nothing (detect_makes_nothing c) m.tree).1
  case fails =>
    intro s e hs
    rw [hstate]
    exact account_state_without_label hs (by simp) command
  case absent =>
    intro s hs
    rw [hstate]
    exact account_state_without_label hs (by simp) command
  case calls =>
    rw [(ofConfig c).course_perform] at hcalls
    exact hcalls
  case directory =>
    intro hrun hne t q hmem hdrive
    rcases eq_detect_or_run command with rfl | ⟨variant, forwarded, rfl⟩
    · exact absurd rfl hrun
    · exact isDirectory_of_isAboutDrive hne hmem hdrive
  case program =>
    intro o args hargs
    have hprogram := (m.perform_eq_course (perform o command)).2.1
    rw [onMachine_perform hargs]
    refine ⟨fun hload => ?_, fun e hload => ?_⟩
    · show (m.perform (perform o command)).2.tree = after.tree
      rw [hprogram, course_perform hload]
      exact htree.symm
    · show (m.perform (perform o command)).2.tree = m.tree
      rw [hprogram]
      exact course_perform_error hload command

end ConfigDrive.CommandLine
