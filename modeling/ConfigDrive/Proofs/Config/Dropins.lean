/-
# ConfigDrive.Proofs.Config.Dropins — which files are drop-ins, and their order.

A drop-in has the extension `yaml` or `yml`, and something before it (`isDropin_iff`).  The drop-ins of a
directory are read in the order of the bytes of their names (`dropinNames_sorted`), whatever the order in
which the directory lists them (`dropinPaths_perm`).
-/
import ConfigDrive.Config.Load
import ConfigDrive.Proofs.Text.Utf8Order
import Mathlib.Data.List.Sort

namespace ConfigDrive.Path

/-- The last dot of a name parts it from its extension. -/
theorem extension?_of_parts {name : String} {stem ext : List Char} (hdot : '.' ∉ ext)
    (hstem : stem ≠ []) (hname : name.toList = stem ++ '.' :: ext) (hext : ext ≠ []) :
    extension? name = some (String.ofList ext) := by
  have hup : name.toList ≠ ['.', '.'] := by
    rw [hname]
    intro h
    -- two dots would make the extension a dot
    have hlast := congrArg List.getLast? h
    rw [List.getLast?_append, List.getLast?_cons_of_ne_nil hext] at hlast
    obtain ⟨c, hc⟩ := Option.ne_none_iff_exists'.mp (mt List.getLast?_eq_none_iff.mp hext)
    rw [hc] at hlast
    cases hlast
    exact hdot (List.mem_of_getLast? hc)
  have htail : (name.toList.reverse.takeWhile (· ≠ '.')).reverse = ext := by
    have hreverse : name.toList.reverse = ext.reverse ++ '.' :: stem.reverse := by
      rw [hname]
      simp
    have hall : ∀ c ∈ ext.reverse, decide (c ≠ '.') = true := by
      intro c hc
      refine decide_eq_true ?_
      rintro rfl
      exact hdot (List.mem_reverse.mp hc)
    rw [hreverse, List.takeWhile_append_of_pos hall, List.takeWhile_cons_of_neg (by decide),
      List.append_nil, List.reverse_reverse]
  rw [extension?]
  dsimp only
  rw [if_neg hup, htail, if_pos]
  rw [hname, List.length_append, List.length_cons]
  have hlength := List.length_pos_of_ne_nil hstem
  omega

/-- A name with an extension has something before its last dot. -/
theorem parts_of_extension? {name ext : String} (h : extension? name = some ext) :
    ∃ stem, stem ≠ [] ∧ name.toList = stem ++ '.' :: ext.toList := by
  rw [extension?] at h
  dsimp only at h
  split at h
  · cases h
  split at h
  · next hlong =>
      cases h
      -- the name, read from its end, is the extension and what begins with the dot
      have hsplit := List.takeWhile_append_dropWhile (p := (· ≠ '.')) (l := name.toList.reverse)
      have hhead := List.head?_dropWhile_not (· ≠ '.') name.toList.reverse
      generalize name.toList.reverse.takeWhile (· ≠ '.') = ext at hsplit hlong
      generalize name.toList.reverse.dropWhile (· ≠ '.') = rest at hsplit hhead
      have hname : name.toList = rest.reverse ++ ext.reverse := by
        rw [← List.reverse_append, hsplit, List.reverse_reverse]
      rw [hname, List.length_append] at hlong
      simp only [List.length_reverse] at hlong
      cases rest with
      | nil => simp at hlong
      | cons c rest =>
          have hc : c = '.' := by simpa using hhead
          subst hc
          refine ⟨rest.reverse, ?_, ?_⟩
          · rintro hnil
            rw [List.reverse_eq_nil_iff] at hnil
            rw [hnil, List.length_singleton] at hlong
            omega
          · rw [hname, String.toList_ofList, List.reverse_cons, List.append_assoc]
            rfl
  · cases h

/-- **An extension** follows the last dot of a name, if something precedes that dot. -/
theorem extension?_eq_some_iff (name ext : String) (hdot : '.' ∉ ext.toList)
    (hext : ext.toList ≠ []) :
    extension? name = some ext ↔ ∃ stem, stem ≠ "" ∧ name = stem ++ ("." ++ ext) := by
  constructor
  · intro h
    obtain ⟨stem, hstem, hname⟩ := parts_of_extension? h
    refine ⟨String.ofList stem, ?_, String.toList_inj.mp ?_⟩
    · intro hempty
      exact hstem (String.ofList_eq.mp hempty)
    · simp [hname]
  · rintro ⟨stem, hstem, rfl⟩
    have hchars : stem.toList ≠ [] := by
      intro hnil
      exact hstem (String.toList_inj.mp hnil)
    have hparts := extension?_of_parts hdot hchars
      (show (stem ++ ("." ++ ext)).toList = stem.toList ++ '.' :: ext.toList by simp) hext
    rw [hparts, String.ofList_toList]

end ConfigDrive.Path

namespace ConfigDrive.Config.Loader

/-- A drop-in has one of two extensions, and something before it. -/
theorem isDropin_iff (name : String) :
    isDropin name = true ↔
      ∃ stem, stem ≠ "" ∧ (name = stem ++ ".yaml" ∨ name = stem ++ ".yml") := by
  have hyaml := Path.extension?_eq_some_iff name "yaml" (by decide) (by decide)
  have hyml := Path.extension?_eq_some_iff name "yml" (by decide) (by decide)
  have hdotted : "." ++ "yaml" = ".yaml" ∧ "." ++ "yml" = ".yml" := by decide
  rw [hdotted.1] at hyaml
  rw [hdotted.2] at hyml
  rw [isDropin, Bool.or_eq_true, beq_iff_eq, beq_iff_eq, hyaml, hyml, ← exists_or]
  refine exists_congr fun stem => ?_
  rw [and_or_left]

/-- The names of the drop-ins among these names, in the order in which they are read. -/
def dropinNames (names : List String) : List String :=
  (names.filter isDropin).mergeSort fun a b => decide (a ≤ b)

theorem dropinNames_perm_filter (names : List String) :
    (dropinNames names).Perm (names.filter isDropin) :=
  List.mergeSort_perm _ _

theorem dropinNames_pairwise (names : List String) : (dropinNames names).Pairwise (· ≤ ·) := by
  have hsorted : (dropinNames names).Pairwise fun a b => decide (a ≤ b) = true := by
    refine List.pairwise_mergeSort (fun a b c hab hbc => ?_) (fun a b => ?_) _
    · exact decide_eq_true (le_trans (of_decide_eq_true hab) (of_decide_eq_true hbc))
    · rw [Bool.or_eq_true, decide_eq_true_iff, decide_eq_true_iff]
      exact le_total a b
  exact hsorted.imp of_decide_eq_true

/-- **Drop-ins are read in the order of the bytes of their names.** -/
theorem dropinNames_sorted (names : List String) :
    (dropinNames names).Pairwise fun a b =>
      Text.Utf8.encode a.toList ≤ Text.Utf8.encode b.toList := by
  refine (dropinNames_pairwise names).imp fun hle => ?_
  exact (Text.Utf8.le_iff_encode_le _ _).mp hle

/-- The order in which a directory is listed does not matter. -/
theorem dropinPaths_perm (l : Loader) {names names' : List String} (h : names.Perm names') :
    l.dropinPaths names = l.dropinPaths names' := by
  have hperm : (dropinNames names).Perm (dropinNames names') :=
    (dropinNames_perm_filter names).trans
      ((h.filter isDropin).trans (dropinNames_perm_filter names').symm)
  show (dropinNames names).map _ = (dropinNames names').map _
  rw [hperm.eq_of_pairwise' (dropinNames_pairwise names) (dropinNames_pairwise names')]

end ConfigDrive.Config.Loader
