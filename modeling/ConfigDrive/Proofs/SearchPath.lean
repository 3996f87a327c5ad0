/-
# ConfigDrive.Proofs.SearchPath — where a program is found.

`FoundAt` says of a path that a program is found there: it is the name itself if that is a path, and
otherwise it lies in the first directory that has an executable of the name.  A look-up finds exactly that
(`resolve_eq_some_iff`), so directories without such an executable do not matter
(`resolve_eq_of_filter_eq`).  What is found holds a slash unless the directory is the empty text
(`isPath_of_foundAt`); only then does the system look the program up once more.

A started program sees the directories as one text.  Cutting that text at its colons gives them back if there
is a directory and none holds a colon, and never otherwise (`splitOn_envValue_iff`), so such lists are known
by the value of `PATH` (`envValue_injOn`).
-/
import ConfigDrive.Proofs.Path
import ConfigDrive.SearchPath
import Mathlib.Data.Set.Function

namespace ConfigDrive.SearchPath

/-- A program is found at a path: at its own name if that is a path, and otherwise in the first directory
that has an executable of the name. -/
inductive FoundAt (dirs : List String) (isExecutable : String → Bool) (program : String) : String → Prop
  | path (hpath : isPath program = true) (hx : isExecutable program = true) :
      FoundAt dirs isExecutable program program
  | inDirectory (hname : isPath program = false) (i : Nat) (hi : i < dirs.length)
      (hx : isExecutable (Path.join dirs[i] program) = true)
      (hfirst : ∀ j (hj : j < i), isExecutable (Path.join dirs[j] program) = false) :
      FoundAt dirs isExecutable program (Path.join dirs[i] program)

variable {p : SearchPath} {dirs dirs' : List String} {isExecutable : String → Bool}
  {program found : String}

theorem candidates_of_isPath (h : isPath program = true) : p.candidates program = [program] := by
  rw [candidates, if_pos h]

theorem candidates_of_name (h : isPath program = false) :
    p.candidates program = p.dirs.map (Path.join · program) := by
  rw [candidates, h]
  rfl

/-- **A look-up finds the first executable**, or the program itself if it is named by a path. -/
theorem resolve_eq_some_iff :
    p.resolve isExecutable program = some found ↔ FoundAt p.dirs isExecutable program found := by
  cases hpath : isPath program with
  | true =>
      rw [resolve, candidates_of_isPath hpath, List.find?_singleton]
      constructor
      · intro h
        split at h
        · next hx =>
            cases h
            exact .path hpath hx
        · cases h
      · intro h
        cases h with
        | path _ hx => rw [if_pos hx]
        | inDirectory hname => cases hpath.symm.trans hname
  | false =>
      rw [resolve, candidates_of_name hpath, List.find?_eq_some_iff_getElem]
      constructor
      · rintro ⟨hx, i, hi, rfl, hfirst⟩
        rw [List.length_map] at hi
        rw [List.getElem_map] at hx ⊢
        refine .inDirectory hpath i hi hx fun j hj => ?_
        simpa using hfirst j hj
      · intro h
        cases h with
        | path h _ => cases h.symm.trans hpath
        | inDirectory _ i hi hx hfirst =>
            refine ⟨hx, i, by simpa using hi, List.getElem_map _, fun j hj => ?_⟩
            rw [List.getElem_map, hfirst j hj]
            rfl

theorem resolve_eq_none_iff_not_foundAt :
    p.resolve isExecutable program = none ↔ ∀ path, ¬ FoundAt p.dirs isExecutable program path := by
  constructor
  · intro h path hfound
    rw [← resolve_eq_some_iff, h] at hfound
    cases hfound
  · intro h
    cases hresolve : p.resolve isExecutable program with
    | none => rfl
    | some path => exact absurd (resolve_eq_some_iff.mp hresolve) (h path)

/-- **Only directories with an executable of the name matter**, and only their order. -/
theorem resolve_eq_of_filter_eq (hname : isPath program = false)
    (h : dirs.filter (fun d => isExecutable (Path.join d program)) =
      dirs'.filter (fun d => isExecutable (Path.join d program))) :
    resolve ⟨dirs⟩ isExecutable program = resolve ⟨dirs'⟩ isExecutable program := by
  have hfind : ∀ ds : List String, resolve ⟨ds⟩ isExecutable program =
      (ds.filter fun d => isExecutable (Path.join d program)).head?.map (Path.join · program) := by
    intro ds
    rw [resolve, candidates_of_name hname, List.find?_map, List.head?_filter]
    rfl
  rw [hfind, hfind, h]

/-! ## Paths and names -/

theorem isPath_join {dir : String} (hdir : dir ≠ "") (hname : isPath program = false) :
    isPath (Path.join dir program) = true := by
  have hrelative : Path.isAbsolute program.toList = false := by
    rw [isPath] at hname
    cases hs : program.toList with
    | nil => rfl
    | cons c cs =>
        rw [hs, List.contains_cons, Bool.or_eq_false_iff, beq_eq_false_iff_ne] at hname
        unfold Path.isAbsolute
        split
        · next h => exact absurd (List.cons.inj h).1.symm hname.1
        · rfl
  have hne : dir.toList ≠ [] := fun h => hdir (String.toList_eq_nil_iff.mp h)
  have hempty : dir.toList.isEmpty = false := by
    rw [List.isEmpty_eq_false_iff]
    exact hne
  rw [isPath, Path.join, String.toList_ofList, Path.joinChars, hrelative, hempty]
  -- either the directory ends with a slash, or one is put between the two
  simp only [Bool.or_self, Bool.false_eq_true, if_false, List.contains_iff_mem]
  split
  · next hlast => exact List.mem_append_left _ (List.mem_of_getLast? hlast)
  · exact List.mem_append_right _ List.mem_cons_self

/-- What is found holds a slash, unless there is a directory without a name. -/
theorem isPath_of_foundAt (h : FoundAt dirs isExecutable program found) (hdirs : "" ∉ dirs) :
    isPath found = true := by
  cases h with
  | path hpath _ => exact hpath
  | inDirectory hname i hi hx hfirst =>
      refine isPath_join (fun hempty => hdirs ?_) hname
      rw [← hempty]
      exact List.getElem_mem hi

/-! ## The value of `PATH` -/

/-- There is a directory, and none holds a colon. -/
def IsColonFree (p : SearchPath) : Prop :=
  p.dirs ≠ [] ∧ ∀ d ∈ p.dirs, ':' ∉ d.toList

instance (p : SearchPath) : Decidable p.IsColonFree :=
  inferInstanceAs (Decidable (_ ∧ _))

theorem toList_envValue (p : SearchPath) :
    p.envValue.toList = Text.joined ':' (p.dirs.map String.toList) := by
  rw [envValue, String.toList_intercalate, Text.joined_eq_intercalate]
  rfl

/-- **The system finds the directories again** in the value of `PATH`, if it can. -/
theorem ofEnvValue_envValue (h : p.IsColonFree) : ofEnvValue p.envValue = p := by
  have hne : p.dirs.map String.toList ≠ [] := fun hnil => h.1 (List.map_eq_nil_iff.mp hnil)
  have hcolon : ∀ d ∈ p.dirs.map String.toList, ':' ∉ d := by
    intro d hd
    obtain ⟨dir, hdir, rfl⟩ := List.mem_map.mp hd
    exact h.2 dir hdir
  have hdirs : (p.dirs.map String.toList).map String.ofList = p.dirs := by
    rw [List.map_map]
    exact List.map_id'' (fun _ => String.ofList_toList) _
  rw [ofEnvValue, toList_envValue, Text.pieces_joined hne hcolon, hdirs]

/-- What the system finds in a value of `PATH` is a list of directories without colons, and never empty. -/
theorem isColonFree_ofEnvValue (value : String) : (ofEnvValue value).IsColonFree := by
  refine ⟨fun hnil => Text.pieces_ne_nil ':' value.toList (List.map_eq_nil_iff.mp hnil), ?_⟩
  intro d hd
  obtain ⟨piece, hpiece, rfl⟩ := List.mem_map.mp hd
  rw [String.toList_ofList]
  exact Text.not_mem_of_mem_pieces hpiece

theorem splitOn_eq_ofEnvValue (value : String) :
    (value.toList.splitOn ':').map String.ofList = (ofEnvValue value).dirs := by
  rw [← Text.pieces_eq_splitOn]
  rfl

/-- Cutting the value of `PATH` gives back the directories exactly if it can. -/
theorem splitOn_envValue_iff (p : SearchPath) :
    (p.envValue.toList.splitOn ':').map String.ofList = p.dirs ↔ p.IsColonFree := by
  rw [splitOn_eq_ofEnvValue]
  constructor
  · intro h
    have hfree := isColonFree_ofEnvValue p.envValue
    rwa [IsColonFree, h] at hfree
  · intro h
    rw [ofEnvValue_envValue h]

theorem envValue_injOn : Set.InjOn envValue {p | p.IsColonFree} := by
  intro p hp q hq h
  rw [← ofEnvValue_envValue hp, h, ofEnvValue_envValue hq]

/-- **`PATH` means the directories exactly when it can.**  Its value, cut at every colon, gives back the
directories in their order if and only if there is one and none holds a colon.  No two such lists have the
same value, so lists with the same value find every program at the same path. -/
theorem envValue_means_dirs :
    (∀ p : SearchPath, (p.envValue.toList.splitOn ':').map String.ofList = p.dirs ↔
        p.dirs ≠ [] ∧ ∀ d ∈ p.dirs, ':' ∉ d.toList) ∧
      Set.InjOn envValue {p | p.IsColonFree} ∧
      ∀ p q : SearchPath, p.IsColonFree → q.IsColonFree → p.envValue = q.envValue →
        ∀ (isExecutable : String → Bool) (program : String),
          p.resolve isExecutable program = q.resolve isExecutable program := by
  refine ⟨splitOn_envValue_iff, envValue_injOn, ?_⟩
  intro p q hp hq h isExecutable program
  rw [envValue_injOn hp hq h]

/-- A list with the empty text in it is known by its value; one with a colon is not. -/
theorem empty_directory_kept :
    IsColonFree ⟨["/usr/bin", "", "tools"]⟩ ∧ IsColonFree (ofEnvValue "/usr/bin::tools") ∧
      ((envValue ⟨["/usr/bin", "", "tools"]⟩).toList.splitOn ':').map String.ofList =
        ["/usr/bin", "", "tools"] ∧
      (ofEnvValue "/usr/bin::tools").resolve (· == "tool") "tool" =
        resolve ⟨["/usr/bin", "", "tools"]⟩ (· == "tool") "tool" ∧
      ((envValue ⟨["a:b"]⟩).toList.splitOn ':').map String.ofList ≠ ["a:b"] := by
  have hfree : IsColonFree ⟨["/usr/bin", "", "tools"]⟩ := by decide
  have hread : IsColonFree (ofEnvValue "/usr/bin::tools") := by decide
  have hcolon : ¬ (["a:b"] ≠ [] ∧ ∀ d ∈ ["a:b"], ':' ∉ d.toList) := by decide
  refine ⟨hfree, hread, (envValue_means_dirs.1 _).mpr hfree, ?_, ?_⟩
  · exact envValue_means_dirs.2.2 _ _ hread hfree (by decide) _ _
  · exact mt (envValue_means_dirs.1 ⟨["a:b"]⟩).mp hcolon

end ConfigDrive.SearchPath
