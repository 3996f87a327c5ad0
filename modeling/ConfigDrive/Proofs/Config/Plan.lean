/-
# ConfigDrive.Proofs.Config.Plan — what loading is to look at.

What is looked at when the settings are loaded is known from the tree: the main file, the directory of
drop-ins, and the drop-ins in the order of their names (`Loader.plan`).  Each look has a verdict, a layer,
nothing, or a failure, and a file or directory that is not found is nothing.  The first look that fails
decides the error and is the last one (`first_failure`); without one the layers are those that exist
(`no_failure`).
-/
import ConfigDrive.Proofs.Config.Loading

namespace ConfigDrive.Config.Loader

open ConfigDrive.Yaml (Value)

/-! ## The plan of a tree -/

/-- The paths of the drop-ins that the directory lists. -/
def listedDropins (l : Loader) (t : FileTree) : List String :=
  match t.listDirectory l.dropinDirectory with
  | .ok names => l.dropinPaths names
  | .error _ => []

/-- What is looked at if nothing fails: the main file, and then the directory of drop-ins and what it
lists. -/
def plan (l : Loader) (t : FileTree) : List Host.Question :=
  .readText l.path ::
    if l.skipDropins then []
    else .listDirectory l.dropinDirectory :: (l.listedDropins t).map .readText

/-- What comes after a step, if the step did not fail. -/
def unlessFailed {α β : Type} (r : Except RunError α) (rest : List β) : List β :=
  match r with
  | .ok _ => rest
  | .error _ => []

theorem unlessFailed_ok {α β : Type} (a : α) (rest : List β) : unlessFailed (.ok a) rest = rest :=
  rfl

theorem unlessFailed_error {α β : Type} (e : RunError) (rest : List β) :
    unlessFailed (.error e : Except RunError α) rest = [] :=
  rfl

/-- The paths of the plan. -/
def paths (l : Loader) (t : FileTree) : List String :=
  l.path :: if l.skipDropins then [] else l.dropinDirectory :: l.listedDropins t

section

variable (t : FileTree)

/-- What comes of one look: a layer, nothing, or a failure. -/
def verdict : Host.Question → Except RunError (Option Value)
  | .readText path => fileValue t path
  | .listDirectory path =>
    match t.listDirectory path with
    | .error e => if e.isNotFound then .ok none else .error (.io e)
    | .ok _ => .ok none
  | _ => .ok none

theorem verdict_readText (path : String) : verdict t (.readText path) = fileValue t path :=
  rfl

theorem verdict_listDirectory (path : String) :
    verdict t (.listDirectory path) =
      match t.listDirectory path with
      | .error e => if e.isNotFound then .ok none else .error (.io e)
      | .ok _ => .ok none :=
  rfl

/-- The looks up to and with the first one that fails. -/
def lookedAt : List Host.Question → List Host.Question
  | [] => []
  | q :: qs => q :: unlessFailed (verdict t q) (lookedAt qs)

/-- The layers that are found, unless something fails. -/
def layersAt : List Host.Question → Except RunError (List Value)
  | [] => .ok []
  | q :: qs => do
    let layer? ← verdict t q
    return layer?.toList ++ (← layersAt qs)

/-- Those of the files that exist, up to the first one that fails. -/
def present : List String → List String
  | [] => []
  | path :: paths =>
    match fileValue t path with
    | .ok (some _) => path :: present paths
    | .ok none => present paths
    | .error _ => []

end

section

variable {t : FileTree} {q : Host.Question} {qs : List Host.Question}

theorem lookedAt_cons_ok {layer? : Option Value} (h : verdict t q = .ok layer?) :
    lookedAt t (q :: qs) = q :: lookedAt t qs := by
  rw [lookedAt, h, unlessFailed_ok]

theorem lookedAt_cons_error {e : RunError} (h : verdict t q = .error e) :
    lookedAt t (q :: qs) = [q] := by
  rw [lookedAt, h, unlessFailed_error]

theorem layersAt_cons_ok {layer? : Option Value} (h : verdict t q = .ok layer?) :
    layersAt t (q :: qs) = (layersAt t qs >>= fun vs => .ok (layer?.toList ++ vs)) := by
  rw [layersAt, h]
  rfl

theorem layersAt_cons_none (h : verdict t q = .ok none) : layersAt t (q :: qs) = layersAt t qs := by
  rw [layersAt_cons_ok h]
  cases layersAt t qs <;> rfl

theorem layersAt_cons_some {v : Value} (h : verdict t q = .ok (some v)) :
    layersAt t (q :: qs) = (layersAt t qs >>= fun vs => .ok (v :: vs)) :=
  layersAt_cons_ok h

theorem layersAt_cons_error {e : RunError} (h : verdict t q = .error e) :
    layersAt t (q :: qs) = .error e := by
  rw [layersAt, h]
  rfl

/-- **The first look that fails** decides the error, and is the last one. -/
theorem first_failure {before after : List Host.Question} {e : RunError}
    (hbefore : ∀ q' ∈ before, ∃ layer?, verdict t q' = .ok layer?) (h : verdict t q = .error e) :
    lookedAt t (before ++ q :: after) = before ++ [q] ∧
      layersAt t (before ++ q :: after) = .error e := by
  induction before with
  | nil => exact ⟨lookedAt_cons_error h, layersAt_cons_error h⟩
  | cons q' before ih =>
      obtain ⟨layer?, hfirst⟩ := hbefore q' List.mem_cons_self
      obtain ⟨hlooked, hlayers⟩ := ih fun q hq => hbefore q (List.mem_cons_of_mem _ hq)
      rw [List.cons_append, lookedAt_cons_ok hfirst, hlooked]
      refine ⟨rfl, ?_⟩
      cases layer? with
      | none => rw [layersAt_cons_none hfirst, hlayers]
      | some v =>
          rw [layersAt_cons_some hfirst, hlayers]
          rfl

/-- **Without a failure** everything is looked at, and what exists is a layer. -/
theorem no_failure (h : ∀ q ∈ qs, ∃ layer?, verdict t q = .ok layer?) :
    lookedAt t qs = qs ∧
      layersAt t qs = .ok (qs.filterMap fun q => (verdict t q).toOption.join) := by
  induction qs with
  | nil => exact ⟨rfl, rfl⟩
  | cons q qs ih =>
      obtain ⟨layer?, hfirst⟩ := h q List.mem_cons_self
      obtain ⟨hlooked, hlayers⟩ := ih fun q hq => h q (List.mem_cons_of_mem _ hq)
      rw [lookedAt_cons_ok hfirst, hlooked, List.filterMap_cons, hfirst]
      refine ⟨rfl, ?_⟩
      cases layer? with
      | none =>
          rw [layersAt_cons_none hfirst, hlayers]
          rfl
      | some v =>
          rw [layersAt_cons_some hfirst, hlayers]
          rfl

end

/-- The last line on the drop-ins. -/
def closing : Except RunError (List Value) → List Log.Line
  | .ok [] => []
  | .ok values => [⟨.info, "Loaded " ++ toString values.length ++ " drop-in configs"⟩]
  | .error _ => []

/-- The lines on the drop-ins. -/
def dropinLines (l : Loader) (t : FileTree) : List Log.Line :=
  unlessFailed (verdict t (.listDirectory l.dropinDirectory))
    ((present t (l.listedDropins t)).map (⟨.debug, "Loaded drop-in config from " ++ ·⟩) ++
      closing (layersAt t ((l.listedDropins t).map .readText)))

/-- The lines that are reported. -/
def lines (l : Loader) (t : FileTree) : List Log.Line :=
  (present t [l.path]).map (⟨.debug, "Loaded config from " ++ ·⟩) ++
    unlessFailed (verdict t (.readText l.path)) (if l.skipDropins then [] else l.dropinLines t)

/-! ## Trees with the same verdicts -/

section

variable {t t' : FileTree} {qs : List Host.Question}

theorem lookedAt_congr (h : ∀ q ∈ qs, verdict t' q = verdict t q) :
    lookedAt t' qs = lookedAt t qs ∧ layersAt t' qs = layersAt t qs := by
  induction qs with
  | nil => exact ⟨rfl, rfl⟩
  | cons q qs ih =>
      obtain ⟨hlooked, hlayers⟩ := ih fun q hq => h q (List.mem_cons_of_mem _ hq)
      rw [lookedAt, lookedAt, layersAt, layersAt, h q List.mem_cons_self, hlooked, hlayers]
      exact ⟨rfl, rfl⟩

theorem present_congr {paths : List String}
    (h : ∀ path ∈ paths, fileValue t' path = fileValue t path) :
    present t' paths = present t paths := by
  induction paths with
  | nil => rfl
  | cons path paths ih =>
      rw [present, present, h path List.mem_cons_self,
        ih fun path hpath => h path (List.mem_cons_of_mem _ hpath)]

variable {l : Loader}

theorem dropinLines_congr (hlisted : l.listedDropins t' = l.listedDropins t)
    (hdirectory : verdict t' (.listDirectory l.dropinDirectory) =
      verdict t (.listDirectory l.dropinDirectory))
    (hfiles : ∀ path ∈ l.listedDropins t, fileValue t' path = fileValue t path) :
    l.dropinLines t' = l.dropinLines t := by
  have hlayers : layersAt t' ((l.listedDropins t).map .readText) =
      layersAt t ((l.listedDropins t).map .readText) := by
    refine (lookedAt_congr fun q hq => ?_).2
    obtain ⟨path, hpath, rfl⟩ := List.mem_map.mp hq
    exact hfiles path hpath
  rw [dropinLines, dropinLines, hlisted, hdirectory, present_congr hfiles, hlayers]

theorem lines_congr (hmain : fileValue t' l.path = fileValue t l.path)
    (hdropins : l.skipDropins = false → l.dropinLines t' = l.dropinLines t) :
    l.lines t' = l.lines t := by
  have hpresent : present t' [l.path] = present t [l.path] := by
    rw [present, present, hmain, present, present]
  rw [lines, lines, hpresent, verdict_readText, verdict_readText, hmain]
  by_cases hskip : l.skipDropins = true
  · rw [if_pos hskip, if_pos hskip]
  · rw [if_neg hskip, if_neg hskip, hdropins (Bool.eq_false_of_not_eq_true hskip)]

end

end ConfigDrive.Config.Loader
