/-
# ConfigDrive.Proofs.Config.Loading — what is read when the settings are loaded.

Loading only looks at a tree of files, so it is a function of that tree: `Loader.files` are the files that
are read, with their values and in their order, and the settings are those of these values as layers
(`course_load`).

Settings are not checked file by file.  A file that is refused on its own is accepted in a stack if later
files replace what is wrong in it (`broken_file_is_replaced`).  What a stack does guarantee is the
converse: whatever remains of a file under the later ones is accepted on its own, and so is the file if
nothing in it is replaced (`load_accepts_remaining`).
-/
import ConfigDrive.Proofs.Config.Remains
import ConfigDrive.Proofs.Host.Course
import ConfigDrive.Proofs.Yaml.OfText
import Mathlib.Control.Monad.Basic

namespace ConfigDrive.Config

open ConfigDrive.Yaml (Value)
open ConfigDrive.Host

namespace Loader

/-! ## The files that are read -/

/-- The value of a file, if it exists. -/
def fileValue (t : FileTree) (path : String) : Except RunError (Option Value) :=
  match t.readText path with
  | .error e => if e.isNotFound then .ok none else .error (.io e)
  | .ok text =>
    match Value.ofText text with
    | .ok v => .ok (some v)
    | .error _ => .error (.config (.unparsable path))

/-- Those of the files that exist, with their values. -/
def filesAt (t : FileTree) : List String → Except RunError (List (String × Value))
  | [] => .ok []
  | path :: paths => do
    match ← fileValue t path with
    | none => filesAt t paths
    | some v => return (path, v) :: (← filesAt t paths)

/-- The paths of the drop-ins that are read. -/
def dropins (l : Loader) (t : FileTree) : Except RunError (List String) :=
  if l.skipDropins then .ok []
  else
    match t.listDirectory l.dropinDirectory with
    | .error e => if e.isNotFound then .ok [] else .error (.io e)
    | .ok names => .ok (l.dropinPaths names)

/-- The files that are read, with their values, in the order in which they are laid over each other. -/
def files (l : Loader) (t : FileTree) : Except RunError (List (String × Value)) := do
  let main ← filesAt t [l.path]
  let dropins ← l.dropins t >>= filesAt t
  return main ++ dropins

theorem course_loadFile (t : FileTree) (path : String) :
    course (loadFile path).run t = ⟨[], .ok (fileValue t path), t⟩ := by
  rw [loadFile, course_bindE_look (course_lift (course_readText path t)), fileValue]
  cases t.readText path with
  | error e =>
      dsimp only
      cases e.isNotFound <;> rfl
  | ok text =>
      dsimp only
      cases Value.ofText text <;> rfl

theorem course_report (t : FileTree) (level : Log.Level) (message : String) :
    course (Loader.say level message).run t = ⟨[], .ok (.ok ()), t⟩ :=
  rfl

theorem course_loadFiles (t : FileTree) (paths : List String) :
    course (loadFiles paths).run t = ⟨[], .ok ((filesAt t paths).map (List.map Prod.snd)), t⟩ := by
  induction paths with
  | nil => rfl
  | cons path paths ih =>
      have hfile := course_loadFile t path
      rw [loadFiles, filesAt]
      cases hvalue : fileValue t path with
      | error e =>
          rw [hvalue] at hfile
          exact course_bindE_error hfile
      | ok v? =>
          rw [hvalue] at hfile
          rw [course_bindE_look hfile]
          cases v? with
          | none => exact ih
          | some v =>
              dsimp only
              rw [course_bindE_look (course_report t _ _)]
              refine Eq.trans (course_bindE_looks (g := fun vs => .ok (v :: vs)) ih fun vs => rfl) ?_
              cases filesAt t paths <;> rfl

theorem course_loadMain (l : Loader) (t : FileTree) :
    course (loadMain l).run t = ⟨[], .ok ((filesAt t [l.path]).map (List.map Prod.snd)), t⟩ := by
  have hfile := course_loadFile t l.path
  rw [loadMain, filesAt]
  cases hvalue : fileValue t l.path with
  | error e =>
      rw [hvalue] at hfile
      exact course_bindE_error hfile
  | ok v? =>
      rw [hvalue] at hfile
      rw [course_bindE_look hfile]
      cases v? with
      | none => rfl
      | some v => rfl

theorem course_loadDropins {l : Loader} (hl : l.skipDropins = false) (t : FileTree) :
    course (loadDropins l).run t =
      ⟨[], .ok ((l.dropins t >>= filesAt t).map (List.map Prod.snd)), t⟩ := by
  have hlist := course_listDirectory l.dropinDirectory t
  have hnot : ¬ l.skipDropins = true := by
    rw [hl]
    exact Bool.false_ne_true
  rw [loadDropins, course_bindE_look (course_lift hlist), dropins, if_neg hnot]
  cases t.listDirectory l.dropinDirectory with
  | error e =>
      dsimp only
      cases e.isNotFound <;> rfl
  | ok names =>
      dsimp only
      have hfiles := course_loadFiles t (l.dropinPaths names)
      show _ = ({ started := [], result := .ok ((filesAt t (l.dropinPaths names)).map _), tree := t } :
        Course (Except RunError (List Value)))
      cases hread : filesAt t (l.dropinPaths names) with
      | error e =>
          rw [hread] at hfiles
          exact course_bindE_error hfiles
      | ok files =>
          rw [hread] at hfiles
          rw [course_bindE_look hfiles]
          cases hempty : (files.map Prod.snd).isEmpty with
          | true =>
              rw [if_neg (by decide)]
              rfl
          | false =>
              rw [if_pos (by decide)]
              rfl

theorem bind_append_files (main : List (String × Value))
    (r : Except RunError (List (String × Value))) :
    ((r >>= fun files => .ok (main ++ files)) >>= fun files => ofLayers (files.map Prod.snd)) =
      (r.map (List.map Prod.snd) >>= fun vs => ofLayers (main.map Prod.snd ++ vs)) := by
  cases r with
  | error e => rfl
  | ok files =>
      show ofLayers ((main ++ files).map Prod.snd) = ofLayers (main.map Prod.snd ++ files.map Prod.snd)
      rw [List.map_append]

/-- **Loading is a function of the tree**: it reads the files and takes their values as layers. -/
theorem course_load (l : Loader) (t : FileTree) :
    course l.load.run t =
      ⟨[], .ok ((l.files t) >>= fun files => ofLayers (files.map Prod.snd)), t⟩ := by
  have hmain := course_loadMain l t
  rw [load, files]
  cases hm : filesAt t [l.path] with
  | error e =>
      rw [hm] at hmain
      exact course_bindE_error hmain
  | ok main =>
      rw [hm] at hmain
      rw [course_bindE_look hmain]
      -- both sides go on from the values of the main file
      show _ = (⟨[], .ok ((l.dropins t >>= filesAt t >>= fun files => .ok (main ++ files)) >>=
        fun files => ofLayers (files.map Prod.snd)), t⟩ : Course (Except RunError Config))
      rw [bind_append_files]
      dsimp only
      by_cases hskip : l.skipDropins = true
      · have hnone : l.dropins t = .ok [] := by rw [dropins, if_pos hskip]
        rw [if_pos hskip, hnone]
        rfl
      · have hdropins := course_loadDropins (Bool.eq_false_of_not_eq_true hskip) t
        rw [if_neg hskip]
        exact course_bindE_looks (g := fun vs => ofLayers (main.map Prod.snd ++ vs)) hdropins
          fun vs => rfl

/-! ## What is guaranteed of each file -/

theorem fileValue_of_mem {t : FileTree} {paths : List String} {files : List (String × Value)}
    (h : filesAt t paths = .ok files) :
    ∀ f ∈ files, fileValue t f.1 = .ok (some f.2) := by
  induction paths generalizing files with
  | nil =>
      cases h
      simp
  | cons path paths ih =>
      rw [filesAt] at h
      obtain ⟨v?, hvalue, h⟩ := bind_eq_ok_iff.mp h
      cases v? with
      | none => exact ih h
      | some v =>
          obtain ⟨rest, hrest, h⟩ := bind_eq_ok_iff.mp h
          cases h
          intro f hf
          rcases List.mem_cons.mp hf with rfl | htail
          · exact hvalue
          · exact ih hrest f htail

/-- The value of every file that is read is that of the file at its path. -/
theorem fileValue_of_mem_files {l : Loader} {t : FileTree} {files : List (String × Value)}
    (h : l.files t = .ok files) : ∀ f ∈ files, fileValue t f.1 = .ok (some f.2) := by
  obtain ⟨main, hmain, h⟩ := bind_eq_ok_iff.mp h
  obtain ⟨rest, hrest, h⟩ := bind_eq_ok_iff.mp h
  obtain ⟨paths, -, hrest⟩ := bind_eq_ok_iff.mp hrest
  cases h
  intro f hf
  rcases List.mem_append.mp hf with hf | hf
  · exact fileValue_of_mem hmain f hf
  · exact fileValue_of_mem hrest f hf

theorem distinct_of_fileValue {t : FileTree} {path : String} {v : Value}
    (h : fileValue t path = .ok (some v)) : v.Distinct := by
  rw [fileValue] at h
  cases hread : t.readText path with
  | error e =>
      rw [hread] at h
      dsimp only at h
      split at h <;> cases h
  | ok text =>
      rw [hread] at h
      dsimp only at h
      cases hvalue : Value.ofText text with
      | error e =>
          rw [hvalue] at h
          cases h
      | ok w =>
          rw [hvalue] at h
          cases h
          exact Yaml.distinct_ofText hvalue

/-- A file as the only one: its value is the only layer. -/
theorem perform_load_alone {m : Machine} {path : String} {v : Value}
    (h : fileValue m.tree path = .ok (some v)) :
    (m.perform ({ path, skipDropins := true } : Loader).load.run).1 = .ok (ofLayers [v]) := by
  have hfiles : ({ path, skipDropins := true } : Loader).files m.tree = .ok [(path, v)] := by
    have hmain : filesAt m.tree [path] = .ok [(path, v)] := by
      rw [filesAt, h]
      rfl
    rw [files, hmain]
    rfl
  rw [(m.perform_eq_course _).1, course_load, hfiles]
  rfl

/-- **Whatever remains of a file is accepted.**  If the settings are loaded, then for every file that was
read and has no tagged keys, what the later files leave of it is accepted over the defaults; if they leave
all of it, then loading succeeds with that file as the only one. -/
theorem load_accepts_remaining {m : Machine} {l : Loader} {c : Config}
    (h : (m.perform l.load.run).1 = .ok (.ok c)) :
    ∃ files, l.files m.tree = .ok files ∧
      ∀ before path v later, files = before ++ (path, v) :: later → v.PlainKeys →
        (∃ d, ofLayers [remaining v (later.map Prod.snd)] = .ok d) ∧
          (remaining v (later.map Prod.snd) = v →
            ∃ d, (m.perform ({ path, skipDropins := true } : Loader).load.run).1 = .ok (.ok d)) := by
  rw [(m.perform_eq_course _).1, course_load] at h
  obtain ⟨files, hfiles, hlayers⟩ := bind_eq_ok_iff.mp (Except.ok.inj h)
  refine ⟨files, hfiles, ?_⟩
  -- every layer is the value of a text, and such values repeat no key
  rintro before path v later rfl hplain
  have hvalues := fileValue_of_mem_files hfiles
  have hv : fileValue m.tree path = .ok (some v) := hvalues (path, v) (by simp)
  have hlater : ∀ w ∈ later.map Prod.snd, w.Distinct := by
    intro w hw
    obtain ⟨f, hf, rfl⟩ := List.mem_map.mp hw
    exact distinct_of_fileValue (hvalues f (by simp [hf]))
  rw [List.map_append, List.map_cons] at hlayers
  obtain ⟨d, hd⟩ := accepts_remaining (distinct_of_fileValue hv) hplain hlater hlayers
  refine ⟨⟨d, hd⟩, fun hall => ⟨d, ?_⟩⟩
  rw [hall] at hd
  rw [perform_load_alone hv, hd]

/-! ## A fault that is replaced -/

/-- A text as the bytes of a file that all may read. -/
def textFile (text : String) : Item :=
  .file 0o644 (Text.Utf8.encode text.toList)

/-- A main file and one drop-in. -/
def sampleTree (main dropin : String) : FileTree :=
  { root :=
      [("config.yaml", textFile main), ("config.d", .directory [("10.yaml", textFile dropin)])]
    workingDirectory := [] }

/-- The loader of the sample trees. -/
def sampleLoader : Loader :=
  { path := "config.yaml" }

/-- The loader of one file of a sample tree. -/
def loneLoader (path : String) : Loader :=
  { path, skipDropins := true }

set_option maxRecDepth 10000 in
/-- **A broken file can be hidden.**  A main file whose `blkid` is a number is refused on its own, but the
settings are loaded if a drop-in gives a text.  A drop-in with a tagged key is refused on its own, but not
over a main file that leaves it no other settings for the tool. -/
theorem broken_file_is_replaced :
    (({ tree := sampleTree "blkid: 5\n" "blkid: /sbin/blkid\n" } : Machine).perform
        sampleLoader.load.run).1 = .ok (.ok { blkid := "/sbin/blkid" }) ∧
      (({ tree := sampleTree "blkid: 5\n" "blkid: /sbin/blkid\n" } : Machine).perform
        (loneLoader "config.yaml").load.run).1 =
          .ok (.error (.config (.invalid (.invalidType (.integer 5) .text)))) ∧
      (({ tree := sampleTree "downstream: 5\n" "downstream: \x7b!t program: x\x7d\n" } :
        Machine).perform sampleLoader.load.run).1 = .ok (.ok { downstream := { program := "x" } }) ∧
      (({ tree := sampleTree "downstream: 5\n" "downstream: \x7b!t program: x\x7d\n" } :
        Machine).perform (loneLoader "config.d/10.yaml").load.run).1 =
          .ok (.error (.config (.invalid (.duplicateField "program")))) := by
  refine ⟨?_, ?_, ?_, ?_⟩ <;> decide +kernel

/-- The value gives a number under one key, and nothing else. -/
def givesNumber (key : String) : Value → Bool
  | .mapping [(.string k, .int _)] => k == key
  | _ => false

theorem exists_of_givesNumber {key : String} {v : Value} (h : givesNumber key v = true) :
    ∃ n, v = .mapping [(.string key, .int n)] := by
  unfold givesNumber at h
  split at h
  · next n =>
      rw [eq_of_beq h]
      exact ⟨n, rfl⟩
  · cases h

set_option maxRecDepth 10000 in
/-- **What a drop-in leaves of a broken main file is accepted**, although the file gives a number where a
text is expected. -/
theorem replaced_fault_remains :
    ∃ n w, sampleLoader.files (sampleTree "blkid: 5\n" "blkid: /sbin/blkid\n") =
        .ok [("config.yaml", .mapping [(.string "blkid", .int n)]), ("config.d/10.yaml", w)] ∧
      ∃ d, ofLayers [remaining (.mapping [(.string "blkid", .int n)]) [w]] = .ok d := by
  have hload : (({ tree := sampleTree "blkid: 5\n" "blkid: /sbin/blkid\n" } : Machine).perform
      sampleLoader.load.run).1 = .ok (.ok { blkid := "/sbin/blkid" }) := by
    decide +kernel
  have hread : (sampleLoader.files (sampleTree "blkid: 5\n" "blkid: /sbin/blkid\n")).toOption.map
      (List.map fun f => (f.1, givesNumber "blkid" f.2)) =
        some [("config.yaml", true), ("config.d/10.yaml", false)] := by
    decide +kernel
  obtain ⟨files, hfiles, hall⟩ := load_accepts_remaining hload
  rw [hfiles, Except.toOption, Option.map_some, Option.some.injEq] at hread
  obtain ⟨⟨path, v⟩, later, rfl, hmain, hlater⟩ := List.map_eq_cons_iff.mp hread
  obtain ⟨⟨dropin, w⟩, rfl, hdropin⟩ := List.map_eq_singleton_iff.mp hlater
  obtain ⟨rfl, hnumber⟩ := Prod.mk.inj hmain
  obtain ⟨rfl, -⟩ := Prod.mk.inj hdropin
  obtain ⟨n, rfl⟩ := exists_of_givesNumber hnumber
  have hplain : (Value.mapping [(.string "blkid", .int n)]).PlainKeys := by
    simp [Value.PlainKeys, Value.Everywhere, Value.EverywhereEntries, Value.KeysUntagged,
      Value.isTagged]
  exact ⟨n, w, hfiles, (hall [] _ _ _ rfl hplain).1⟩

end Loader

end ConfigDrive.Config
