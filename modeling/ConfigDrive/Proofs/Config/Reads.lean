/-
# ConfigDrive.Proofs.Config.Reads — loading depends on the right files, in the right order.

Loading follows a plan that depends on the tree alone, so it does not matter in which order directories are
listed; and it depends on the tree only where the paths of the plan lead.  Entries that are no drop-ins do
not matter as such (`load_reads_in_order`), but a link among the drop-ins may lead through one of them
(`other_entry_matters`).
-/
import ConfigDrive.Proofs.Config.Following
import ConfigDrive.Proofs.FileTree.Locality

namespace ConfigDrive.Config.Loader

open ConfigDrive.Host (Enumeration)

/-! ## Changes elsewhere -/

section

variable {l : Loader} {t : FileTree} {changed : String → Bool} {change : Listing → Listing}
  {d : Place} (hchange : Listing.ChangesOnly changed change)

include hchange

theorem fileValue_modifyAt {path : String}
    (h : ∀ name, (d, name) ∈ t.looks path → changed name = false) :
    fileValue (t.modifyAt d change) path = fileValue t path := by
  rw [fileValue, fileValue, FileTree.readText_modifyAt hchange h]

/-- A directory has the same drop-ins if only other entries were changed. -/
theorem listedDropins_modifyAt (hother : ∀ name, isDropin name = true → changed name = false)
    (h : ∀ name, (d, name) ∈ t.looks l.dropinDirectory → changed name = false) :
    l.listedDropins (t.modifyAt d change) = l.listedDropins t ∧
      verdict (t.modifyAt d change) (.listDirectory l.dropinDirectory) =
        verdict t (.listDirectory l.dropinDirectory) := by
  have hnames := FileTree.listDirectory_modifyAt hchange h hother
  rw [verdict_listDirectory, verdict_listDirectory]
  unfold listedDropins
  cases hafter : (t.modifyAt d change).listDirectory l.dropinDirectory with
  | error err =>
      cases hbefore : t.listDirectory l.dropinDirectory with
      | error err' =>
          rw [hafter, hbefore] at hnames
          cases hnames
          exact ⟨rfl, rfl⟩
      | ok names' =>
          rw [hafter, hbefore] at hnames
          cases hnames
  | ok names =>
      cases hbefore : t.listDirectory l.dropinDirectory with
      | error err' =>
          rw [hafter, hbefore] at hnames
          cases hnames
      | ok names' =>
          rw [hafter, hbefore] at hnames
          have hfilter : names.filter isDropin = names'.filter isDropin := Except.ok.inj hnames
          refine ⟨?_, rfl⟩
          show l.dropinPaths names = l.dropinPaths names'
          rw [dropinPaths, dropinPaths, hfilter]

/-- **Only what a path leads through matters.**  After a change to entries that no path of the plan looks
up, and that are no drop-ins if these are read, loading goes as before. -/
theorem gives_load_modifyAt
    (hother : l.skipDropins = false → ∀ name, isDropin name = true → changed name = false)
    (h : ∀ path ∈ l.paths t, ∀ name, (d, name) ∈ t.looks path → changed name = false)
    (e : Enumeration) : l.Follows t e (t.modifyAt d change) := by
  have hmain : fileValue (t.modifyAt d change) l.path = fileValue t l.path :=
    fileValue_modifyAt hchange (h l.path List.mem_cons_self)
  have hload : Gives e (t.modifyAt d change) l.load _ _ _ := gives_load l
  by_cases hskip : l.skipDropins = true
  · have hplan : ∀ t', l.plan t' = [.readText l.path] := by
      intro t'
      rw [plan, if_pos hskip]
    have hverdict : ∀ q ∈ l.plan t, verdict (t.modifyAt d change) q = verdict t q := by
      intro q hq
      rw [hplan, List.mem_singleton] at hq
      rw [hq]
      exact hmain
    have hlines : l.lines (t.modifyAt d change) = l.lines t := by
      refine lines_congr hmain fun hread => ?_
      rw [hskip] at hread
      cases hread
    rw [hplan, ← hplan t, (lookedAt_congr hverdict).1, (lookedAt_congr hverdict).2, hlines] at hload
    exact hload
  · have hread := Bool.eq_false_of_not_eq_true hskip
    have hpaths : l.paths t = l.path :: l.dropinDirectory :: l.listedDropins t := by
      rw [paths, if_neg hskip]
    rw [hpaths] at h
    obtain ⟨hlisted, hdirectory⟩ := listedDropins_modifyAt hchange (hother hread)
      (h l.dropinDirectory (List.mem_cons_of_mem _ List.mem_cons_self))
    have hfiles : ∀ path ∈ l.listedDropins t,
        fileValue (t.modifyAt d change) path = fileValue t path := fun path hpath =>
      fileValue_modifyAt hchange
        (h path (List.mem_cons_of_mem _ (List.mem_cons_of_mem _ hpath)))
    have hplan : l.plan (t.modifyAt d change) = l.plan t := by
      rw [plan, plan, hlisted]
    have hverdict : ∀ q ∈ l.plan t, verdict (t.modifyAt d change) q = verdict t q := by
      intro q hq
      rw [plan, if_neg hskip, List.mem_cons, List.mem_cons, List.mem_map] at hq
      rcases hq with rfl | rfl | ⟨path, hpath, rfl⟩
      · exact hmain
      · exact hdirectory
      · exact hfiles path hpath
    have hlines : l.lines (t.modifyAt d change) = l.lines t :=
      lines_congr hmain fun _ => dropinLines_congr hlisted hdirectory hfiles
    rw [hplan, (lookedAt_congr hverdict).1, (lookedAt_congr hverdict).2, hlines] at hload
    exact hload

omit hchange in
/-- One entry that is no drop-in may be added, replaced or removed. -/
theorem gives_load_entry {name : String}
    (hother : l.skipDropins = false → isDropin name = false)
    (h : ∀ path ∈ l.paths t, (d, name) ∉ t.looks path) (e : Enumeration) :
    (∀ item, l.Follows t e (t.insert d name item)) ∧
      l.Follows t e (t.modifyAt d (Listing.erase · name)) := by
  have hdropins : l.skipDropins = false → ∀ n, isDropin n = true → (n == name) = false := by
    intro hread n hn
    refine beq_false_of_ne ?_
    rintro rfl
    exact Bool.false_ne_true ((hother hread).symm.trans hn)
  have hlooks : ∀ path ∈ l.paths t, ∀ n, (d, n) ∈ t.looks path → (n == name) = false := by
    intro path hpath n hn
    refine beq_false_of_ne ?_
    rintro rfl
    exact h path hpath hn
  exact ⟨fun item => gives_load_modifyAt (Listing.changesOnly_insert name item) hdropins hlooks e,
    gives_load_modifyAt (Listing.changesOnly_erase name) hdropins hlooks e⟩

end

/-! ## The right files in the right order -/

/-- The drop-ins are the entries with such names, in the order of the bytes of the names. -/
theorem listedDropins_of_names {l : Loader} {t : FileTree} {names : List String}
    (h : t.listDirectory l.dropinDirectory = .ok names) :
    ∃ sorted : List String, sorted.Perm (names.filter isDropin) ∧
      sorted.Pairwise (fun a b => Text.Utf8.encode a.toList ≤ Text.Utf8.encode b.toList) ∧
      l.listedDropins t = sorted.map (Path.join l.dropinDirectory) := by
  refine ⟨dropinNames names, dropinNames_perm_filter names, dropinNames_sorted names, ?_⟩
  unfold listedDropins
  rw [h]
  rfl

/-- **Loading reads the right files in the right order.**  For every loader and tree, and in whatever order
directories are listed, loading asks what the plan says up to the first failure, and reports the same lines
with the same result; a machine does so too.  The drop-ins of the plan are the entries of the directory
with one of the two extensions, in the order of the bytes of their names.  The first look that fails decides
the error and is the last one; without one the layers are those that exist.

To add, replace or remove an entry that is no drop-in does not matter, as long as no path of the plan leads
through it, and neither does any change to several of them; without drop-ins this is so for every entry. -/
theorem load_reads_in_order (l : Loader) (t : FileTree) :
    (∀ e : Enumeration, l.Follows t e t) ∧
      (∀ m : Machine, m.tree = t →
        (m.perform l.load.run).1 = .ok (layersAt t (l.plan t) >>= ofLayers) ∧
          (m.perform l.load.run).2.log = m.log ++ l.lines t) ∧
      (∀ name, isDropin name = true ↔
        ∃ stem, stem ≠ "" ∧ (name = stem ++ ".yaml" ∨ name = stem ++ ".yml")) ∧
      (∀ names, t.listDirectory l.dropinDirectory = .ok names →
        ∃ sorted : List String, sorted.Perm (names.filter isDropin) ∧
          sorted.Pairwise (fun a b => Text.Utf8.encode a.toList ≤ Text.Utf8.encode b.toList) ∧
          l.listedDropins t = sorted.map (Path.join l.dropinDirectory)) ∧
      (∀ before q after err, l.plan t = before ++ q :: after →
        (∀ q' ∈ before, ∃ layer?, verdict t q' = .ok layer?) → verdict t q = .error err →
        ∀ e : Enumeration, Gives e t l.load (before ++ [q]) (l.lines t) (.error err)) ∧
      ((∀ q ∈ l.plan t, ∃ layer?, verdict t q = .ok layer?) →
        ∀ e : Enumeration, Gives e t l.load (l.plan t) (l.lines t)
          (ofLayers ((l.plan t).filterMap fun q => (verdict t q).toOption.join))) ∧
      (∀ d name, (l.skipDropins = false → isDropin name = false) →
        (∀ path ∈ l.paths t, (d, name) ∉ t.looks path) →
        ∀ e : Enumeration, (∀ item, l.Follows t e (t.insert d name item)) ∧
          l.Follows t e (t.modifyAt d (Listing.erase · name))) ∧
      ∀ d changed change, Listing.ChangesOnly changed change →
        (l.skipDropins = false → ∀ name, isDropin name = true → changed name = false) →
        (∀ path ∈ l.paths t, ∀ name, (d, name) ∈ t.looks path → changed name = false) →
        ∀ e : Enumeration, l.Follows t e (t.modifyAt d change) := by
  refine ⟨fun e => gives_load l, ?machine, isDropin_iff, fun names => listedDropins_of_names,
    ?failure, ?success, fun d name => gives_load_entry, ?elsewhere⟩
  case machine =>
    rintro m rfl
    obtain ⟨hresult, hlog⟩ := m.perform_eq_account l.load.run
    have hload : Gives .inTree m.tree l.load _ _ _ := gives_load l
    rw [hresult, hlog, hload.result, hload.log]
    exact ⟨rfl, rfl⟩
  case failure =>
    intro before q after err hplan hbefore hq e
    have hload : Gives e t l.load _ _ _ := gives_load l
    have hfirst : lookedAt t (before ++ q :: after) = before ++ [q] ∧
        layersAt t (before ++ q :: after) = .error err := first_failure hbefore hq
    obtain ⟨hlooked, hlayers⟩ := hfirst
    rw [hplan, hlooked, hlayers] at hload
    exact hload
  case success =>
    intro hall e
    have hload : Gives e t l.load _ _ _ := gives_load l
    obtain ⟨hlooked, hlayers⟩ := no_failure hall
    rw [hlooked, hlayers] at hload
    exact hload
  case elsewhere =>
    intro d changed change hchange hother hpaths e
    exact gives_load_modifyAt hchange hother hpaths e

/-- A sample tree with something else beside the drop-in. -/
def treeWithNotes (item : Item) : FileTree :=
  (sampleTree "blkid: 5\n" "blkid: /sbin/blkid\n").insert ["config.d"] "notes.txt" item

set_option maxRecDepth 10000 in
/-- Whatever stands beside the drop-in under another name, the settings are the same. -/
theorem notes_are_ignored :
    ∀ item, (({ tree := treeWithNotes item } : Machine).perform sampleLoader.load.run).1 =
      .ok (.ok { blkid := "/sbin/blkid" }) := by
  intro item
  let t := sampleTree "blkid: 5\n" "blkid: /sbin/blkid\n"
  obtain ⟨-, -, -, -, -, -, hentry, -⟩ := load_reads_in_order sampleLoader t
  have hlooks : ∀ path ∈ sampleLoader.paths t, (["config.d"], "notes.txt") ∉ t.looks path := by
    decide +kernel
  have hload := (hentry ["config.d"] "notes.txt" (fun _ => by decide) hlooks .inTree).1 item
  have hlayers : (layersAt t (sampleLoader.plan t) >>= ofLayers) =
      .ok { blkid := "/sbin/blkid" } := by
    decide +kernel
  rw [(Machine.perform_eq_account _ _).1, ← hlayers]
  exact hload.result

/-! ## Links -/

/-- A tree with a drop-in that is a link to an entry that is none. -/
def linkedDropin : FileTree where
  root := [("config.d", .directory
    [("10.yaml", .link "real.conf"), ("real.conf", textFile "blkid: /sbin/blkid\n")])]
  workingDirectory := []

/-- A tree with a main file that is a link into the directory of drop-ins. -/
def linkedMain : FileTree where
  root := [("config.yaml", .link "config.d/base.conf"),
    ("config.d", .directory [("base.conf", textFile "blkid: /sbin/blkid\n")])]
  workingDirectory := []

set_option maxRecDepth 10000 in
/-- **An entry that is no drop-in can matter** to a path that leads through it: with the entry behind a link
the settings change, and so they do without drop-ins if the link is the main file. -/
theorem other_entry_matters :
    isDropin "real.conf" = false ∧
      (({ tree := linkedDropin } : Machine).perform sampleLoader.load.run).1 =
        .ok (.ok { blkid := "/sbin/blkid" }) ∧
      (({ tree := linkedDropin.erase ["config.d", "real.conf"] } : Machine).perform
        sampleLoader.load.run).1 = .ok (.ok {}) ∧
      (({ tree := linkedMain } : Machine).perform (loneLoader "config.yaml").load.run).1 =
        .ok (.ok { blkid := "/sbin/blkid" }) ∧
      (({ tree := linkedMain.erase ["config.d", "base.conf"] } : Machine).perform
        (loneLoader "config.yaml").load.run).1 = .ok (.ok {}) := by
  refine ⟨?_, ?_, ?_, ?_, ?_⟩ <;> decide +kernel

end ConfigDrive.Config.Loader
