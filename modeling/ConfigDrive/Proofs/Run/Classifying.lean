/-
# ConfigDrive.Proofs.Run.Classifying — why a mount failed.

A mount utility that ran and failed does not say why.  The mount table does: a target that it lists is
already mounted, and any other failure is what the utility left, its code and what it wrote
(`course_mountDevice_failed`).  For a table that the kernel wrote this is right for every target, as long
as no source or target holds a stray blank (`mountDevice_classifies`); with one, a mounted target can be
missed, and a target can be found that nothing is mounted on (`stray_blank_misleads`).
-/
import ConfigDrive.Proofs.Drive.MountTable
import ConfigDrive.Proofs.Run.Starts

namespace ConfigDrive

open Host
open ConfigDrive.Drive (Mount MountFailure MountOptions MountTable)

/-- The failure of a mount utility that ended like this, when the target is listed or not. -/
def Completion.mountFailure (c : Completion) (target : String) (listed : Bool) : MountFailure :=
  if listed then .alreadyMounted target
  else .exited (c.status.code?.map fun code => (code : Int)) (Text.trimmed (Text.Utf8.text c.stderr))

namespace Utilities

variable {u : Utilities} {t : FileTree} {device target : String} {options : MountOptions}
  {program : Started}

/-- A mount utility that ran and failed. -/
theorem course_attemptMount_failed (hran : u.mountAttempt t device target options = .ran program)
    (hfails : program.image.completion.status.isSuccess = false) :
    course (u.attemptMount device target options) t =
      ⟨[program], .ok (.exited program.image.completion.status.code?
        (Text.trimmed (Text.Utf8.text program.image.completion.stderr))), t⟩ := by
  obtain ⟨hresolved, himage⟩ := attempt_eq_ran hran
  have hstarted : startedBy t false program.command = [program] := by
    rw [startedBy, himage]
  rw [attemptMount, course_bind_look (course_command? t u.searchPath u.mount _), hresolved]
  dsimp only
  rw [course_bind_look (course_say _ _ t), course_bind, course_collect, hstarted, himage]
  dsimp only [Except.map]
  rw [hfails]
  rfl

/-- **The mount table decides why a mount failed.** -/
theorem course_mountDevice_failed {text : String}
    (hran : u.mountAttempt t device target options = .ran program)
    (hfails : program.image.completion.status.isSuccess = false)
    (htable : t.readText u.mountTable = .ok text) :
    course (Procedure.refine u.answer (Run.mountDevice device target options)) t =
      ⟨[program], .ok (.error (program.image.completion.mountFailure target
        ((MountTable.ofText text).hasTarget target))), t⟩ := by
  have hmount : course (Procedure.refine u.answer (Run.attemptMount device target options)) t = _ :=
    Eq.trans (congrArg (course · t) (u.refine_question (.attemptMount device target options)))
      (course_attemptMount_failed hran hfails)
  have hread : course (Procedure.refine u.answer Run.readMountTable) t =
      ⟨[], .ok (.ok (MountTable.ofText text)), t⟩ := by
    refine Eq.trans (congrArg (course · t) (u.refine_question .readMountTable)) ?_
    show course u.readMountTable t = _
    rw [readMountTable, course_bind_look (course_readText u.mountTable t), htable]
    rfl
  rw [Run.mountDevice, refine_bind]
  refine course_bind_last hmount ?_
  show course (Procedure.refine u.answer (Run.classify target _ _ >>= _)) t = _
  rw [refine_bind, Run.classify, refine_bind, LawfulMonad.bind_assoc, course_bind_look hread]
  dsimp only
  rw [Completion.mountFailure]
  cases (MountTable.ofText text).hasTarget target <;> rfl

/-! ## A table that the kernel wrote -/

/-- **A failed mount is classified by the mounts as they are read.**  When no source or target holds a
stray blank, these are the mounts themselves. -/
theorem mountDevice_classifies (m : Machine) (u : Utilities) (mounts : List Mount)
    (device target : String) (options : MountOptions) (program : Started)
    (htable : m.tree.readText u.mountTable = .ok (Mount.table mounts))
    (hran : u.mountAttempt m.tree device target options = .ran program)
    (hfails : program.image.completion.status.isSuccess = false) :
    (m.perform (Procedure.refine u.answer (Run.mountDevice device target options))).1 =
        .ok (.error (program.image.completion.mountFailure target
          (mounts.any fun k => k.readTarget?.any (Path.same · target)))) ∧
      ((∀ k ∈ mounts, k.IsPlain) →
        (m.perform (Procedure.refine u.answer (Run.mountDevice device target options))).1 =
          .ok (.error (program.image.completion.mountFailure target
            (mounts.any fun k => Path.same k.target target)))) := by
  have hresult : (m.perform (Procedure.refine u.answer (Run.mountDevice device target options))).1 =
      .ok (.error (program.image.completion.mountFailure target
        (mounts.any fun k => k.readTarget?.any (Path.same · target)))) := by
    rw [(m.perform_eq_course _).1, course_mountDevice_failed hran hfails htable,
      Mount.hasTarget_table]
  refine ⟨hresult, fun hplain => ?_⟩
  rw [hresult, Mount.any_readTarget?_of_isPlain hplain]

/-! ## A mount utility that fails -/

/-- A tree with a mount utility that always fails, and a mount table. -/
def busyTree (mounts : List Mount) : FileTree :=
  { root :=
      [("bin", .directory [("mount", .program 0o755 ⟨[], Shell.complaint 32 "mount: busy"⟩)]),
        ("mounts", .file 0o644 (Text.Utf8.encode (Mount.table mounts).toList))]
    workingDirectory := [] }

/-- The programs and the mount table of that tree. -/
def busyUtilities : Utilities :=
  { blkid := "blkid", mount := "mount", searchPath := ⟨["bin"]⟩, mountTable := "mounts" }

/-- What comes of mounting a drive on that tree. -/
def mountBusy (mounts : List Mount) (target : String) : Except Completion (Except MountFailure Unit) :=
  (({ tree := busyTree mounts } : Machine).perform (Procedure.refine busyUtilities.answer
    (Run.mountDevice "/dev/sr0" target ⟨some "iso9660", "ro"⟩))).1

/-- A drive that is mounted on a directory with a space in its name. -/
def spacedMount : Mount where
  source := "/dev/sr0"
  target := "/mnt/config drive"
  fsType := "iso9660"
  options := "ro"
  more := ["0", "0"]
  source_ne := by decide
  target_ne := by decide
  isField := by decide +kernel

/-- A drive that is mounted on a directory with a no-break space in its name. -/
def strayMount : Mount where
  source := "/dev/sr0"
  target := "/mnt/config\u00a0drive"
  fsType := "iso9660"
  options := "ro"
  more := ["0", "0"]
  source_ne := by decide
  target_ne := by decide
  isField := by decide +kernel

/-- A share that is mounted on `/media`, with a no-break space before a path in its name. -/
def strayShare : Mount where
  source := "share\u00a0/mnt/config"
  target := "/media"
  fsType := "9p"
  options := "rw"
  source_ne := by decide
  target_ne := by decide
  isField := by decide +kernel

set_option maxRecDepth 10000 in
/-- A target with a space is found, although the space is escaped in the table. -/
theorem spaced_target_found :
    spacedMount.IsPlain ∧
      mountBusy [spacedMount] "/mnt//config drive/" =
        .ok (.error (.alreadyMounted "/mnt//config drive/")) := by
  have hplain : spacedMount.IsPlain := by decide +kernel
  have hstarted : ((busyUtilities.mountAttempt (busyTree [spacedMount]) "/dev/sr0"
      "/mnt//config drive/" ⟨some "iso9660", "ro"⟩).started.map fun s => s.image.completion) =
        [Shell.complaint 32 "mount: busy"] := by
    decide +kernel
  obtain ⟨program, hran, hcompletion⟩ := Attempt.exists_ran hstarted
  have hclassified := (mountDevice_classifies { tree := busyTree [spacedMount] } busyUtilities
    [spacedMount] "/dev/sr0" "/mnt//config drive/" ⟨some "iso9660", "ro"⟩ program
    (by decide +kernel) hran (by rw [hcompletion]; rfl)).2 (List.forall_mem_singleton.mpr hplain)
  have hlisted : ([spacedMount].any fun k => Path.same k.target "/mnt//config drive/") = true := by
    decide +kernel
  refine ⟨hplain, hclassified.trans ?_⟩
  rw [hlisted]
  rfl

set_option maxRecDepth 10000 in
/-- **A stray blank misleads.**  A target that holds one is not found in the table, though it is mounted;
and after a source that holds one a target is found that nothing is mounted on. -/
theorem stray_blank_misleads :
    mountBusy [strayMount] strayMount.target = .ok (.error (.exited (some 32) "mount: busy")) ∧
      mountBusy [strayShare] "/mnt/config" = .ok (.error (.alreadyMounted "/mnt/config")) ∧
      Path.same strayShare.target "/mnt/config" = false := by
  refine ⟨?_, ?_, ?_⟩ <;> decide +kernel

end Utilities

end ConfigDrive
