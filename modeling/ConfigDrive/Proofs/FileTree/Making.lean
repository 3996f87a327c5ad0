/-
# ConfigDrive.Proofs.FileTree.Making — making a directory and the missing ones around it.

`FileTree.makeDirectories` goes from a path to the directory around it until one can be made, and then back.
On the way back it may fail, and what has been made so far stays.  In any case the tree has only grown
along the path; and if the making succeeded, the path leads to a directory (`makeDirectories_made`).
-/
import ConfigDrive.Proofs.FileTree.Growth

namespace ConfigDrive.FileTree

variable {t t' : FileTree} {path : String}

/-- One directory is made at the end of its path, or none. -/
theorem growsAlong_makeDirectory (h : t.makeDirectory path = .ok t') :
    GrowsAlong path t t' ∧ t'.isDirectory path = true := by
  unfold makeDirectory at h
  cases hstop : t.locateSteps false path (namesOf path) with
  | error e =>
      rw [hstop] at h
      cases h
  | ok stop =>
      rw [hstop] at h
      cases stop with
      | vacant l name =>
          cases h
          exact growsAlong_insert hstop
      | reached l item => cases h
      | link trail target rest => cases h

/-- What may come of making directories along a path. -/
structure Made (path : String) (t : FileTree) (r : Except SystemError Unit × FileTree) : Prop where
  growsAlong : GrowsAlong path t r.2
  isDirectory : r.1 = .ok () → path ≠ "" → r.2.isDirectory path = true

namespace Made

theorem of_makeDirectory (h : t.makeDirectory path = .ok t') : Made path t (.ok (), t') := by
  obtain ⟨hgrows, hdir⟩ := growsAlong_makeDirectory h
  exact ⟨hgrows, fun _ _ => hdir⟩

/-- A failure, after which nothing else is made. -/
theorem of_failure (h : GrowsAlong path t t') (e : SystemError) : Made path t (.error e, t') :=
  ⟨h, nofun⟩

/-- A failure that does not matter if there is a directory anyway. -/
theorem of_unless (h : GrowsAlong path t t') (e : SystemError) :
    Made path t (if t'.isDirectory path then .ok () else .error e, t') := by
  refine ⟨h, fun hok _ => ?_⟩
  dsimp only at hok
  split at hok
  · next hdir => exact hdir
  · cases hok

/-- What is made after the directories around it. -/
theorem after {r : Except SystemError Unit × FileTree} (h : Made path t' r)
    (h' : GrowsAlong path t t') : Made path t r :=
  ⟨h'.trans h.growsAlong, h.isDirectory⟩

end Made

/-- **Making directories along a path** adds directories that prefixes of the path lead to, and changes
nothing else, also where it fails; where it succeeds, the path leads to a directory. -/
theorem makeDirectories_made (t : FileTree) (path : String) :
    Made path t (t.makeDirectories path) := by
  -- along the directories around the path, which are prefixes of it
  fun_induction makeDirectories t path with
  | case1 path hempty =>
      refine ⟨.refl path t, fun _ hne => absurd ?_ hne⟩
      simpa using hempty
  | case2 path _ t' hmake => exact .of_makeDirectory hmake
  | case3 path _ e _ _ => exact .of_unless (.refl path t) e
  | case4 path _ e _ _ _ => exact .of_failure (.refl path t) _
  | case5 path _ e _ _ parent hparent _ e' t' haround ih =>
      rw [haround] at ih
      exact .of_failure (ih.growsAlong.mono (.parent hparent)) e'
  | case6 path _ e _ _ parent hparent _ t' haround t'' hmake ih =>
      rw [haround] at ih
      exact (Made.of_makeDirectory hmake).after (ih.growsAlong.mono (.parent hparent))
  | case7 path _ e _ _ parent hparent _ t' haround e' _ ih =>
      rw [haround] at ih
      exact .of_unless (ih.growsAlong.mono (.parent hparent)) e'
  | case8 path _ e _ _ _ _ _ => exact .of_failure (.refl path t) _

/-- A file in the way stops the making half-way: what was made before stays, and there is an error. -/
example :
    let t : FileTree := ⟨[("file", .file 0o644 [])], []⟩
    let (result, t') := t.makeDirectories "new/../file/drive"
    (result.isOk, t'.root.map Prod.fst) = (false, ["file", "new"]) := by
  decide +kernel

end ConfigDrive.FileTree
