/-
# ConfigDrive.Proofs.Path — the paths around a path.

A path is a prefix of another if its components are the first ones of the other.  The directory that a
path is in has all components but the last one (`exists_of_parentChars?`), so going from a path to the
directory around it, again and again, one only meets prefixes of the path (`IsPrefix.parent`).

That takes some care with the text, because a slash or a dot at the start of a path is a component, and
the same characters later on are none: what is left of a path must not begin with one that was in the
middle before.
-/
import ConfigDrive.Path
import Mathlib.Data.List.DropRight

namespace ConfigDrive

namespace Text

/-! ## Pieces that are joined again -/

variable {sep : Char}

theorem pieces_cons_of_ne {c : Char} (h : c ≠ sep) (cs : List Char) :
    ∃ p ps, pieces sep cs = p :: ps ∧ pieces sep (c :: cs) = (c :: p) :: ps := by
  cases hp : pieces sep cs with
  | nil => exact absurd hp (pieces_ne_nil sep cs)
  | cons p ps => exact ⟨p, ps, rfl, by simp [pieces, h, hp]⟩

theorem pieces_eq_splitOn (s : List Char) : pieces sep s = s.splitOn sep := by
  rw [List.splitOn_eq_splitOnP]
  induction s with
  | nil => simp [pieces]
  | cons c cs ih =>
      rw [List.splitOnP_cons_eq_if_modifyHead, ← ih]
      by_cases h : c = sep
      · simp [pieces, h]
      · obtain ⟨p, ps, hcs, hs⟩ := pieces_cons_of_ne h cs
        simp [hs, hcs, h]

theorem joined_eq_intercalate (ps : List (List Char)) : joined sep ps = [sep].intercalate ps := by
  induction ps with
  | nil => rfl
  | cons p ps ih =>
      cases ps with
      | nil => simp [joined, List.intercalate]
      | cons q qs =>
          rw [joined, ih]
          · simp [List.intercalate]
          · simp

theorem not_mem_of_mem_pieces {s p : List Char} (h : p ∈ pieces sep s) : sep ∉ p := by
  induction s generalizing p with
  | nil =>
      obtain rfl := List.mem_singleton.mp h
      simp
  | cons c cs ih =>
      by_cases hc : c = sep
      · rw [pieces, if_pos hc] at h
        rcases List.mem_cons.mp h with rfl | htail
        · simp
        · exact ih htail
      · obtain ⟨q, ps, hcs, hs⟩ := pieces_cons_of_ne hc cs
        rw [hs] at h
        rw [hcs] at ih
        rcases List.mem_cons.mp h with rfl | htail
        · have hq := ih List.mem_cons_self
          simp [hq, Ne.symm hc]
        · exact ih (List.mem_cons_of_mem _ htail)

/-- Pieces are found again in the text that joins them. -/
theorem pieces_joined {ps : List (List Char)} (hne : ps ≠ []) (h : ∀ p ∈ ps, sep ∉ p) :
    pieces sep (joined sep ps) = ps := by
  rw [pieces_eq_splitOn, joined_eq_intercalate]
  exact List.splitOn_intercalate sep h hne

end Text

namespace Path

open Text (pieces joined)

/-! ## Prefixes -/

/-- The components of a path are the first ones of another. -/
def IsPrefix (p q : String) : Prop :=
  components p.toList <+: components q.toList

theorem IsPrefix.refl (p : String) : IsPrefix p p :=
  List.prefix_rfl

theorem IsPrefix.trans {p q r : String} (h : IsPrefix p q) (h' : IsPrefix q r) : IsPrefix p r :=
  List.IsPrefix.trans h h'

/-! ## Pieces at the end -/

/-- The components that some pieces name. -/
def named (ps : List (List Char)) : List Component :=
  ps.filterMap component?

theorem component?_eq_none_iff {p : List Char} : component? p = none ↔ isSilent p = true := by
  unfold component?
  by_cases h : isSilent p = true
  · simp [h]
  · simp only [h, Bool.false_eq_true, if_false, iff_false]
    split <;> simp

theorem trimPieces_eq (ps : List (List Char)) : trimPieces ps = ps.rdropWhile isSilent :=
  rfl

theorem named_trimPieces (ps : List (List Char)) : named (trimPieces ps) = named ps := by
  have hdropped : named (ps.rtakeWhile isSilent) = [] := by
    apply List.filterMap_eq_nil_iff.mpr
    intro p hp
    exact component?_eq_none_iff.mpr (List.mem_rtakeWhile_imp hp)
  have happend : ∀ qs rs, named (qs ++ rs) = named qs ++ named rs :=
    fun qs rs => List.filterMap_append
  conv_rhs => rw [← List.rdropWhile_append_rtakeWhile (p := isSilent) (l := ps)]
  rw [happend, hdropped, List.append_nil, trimPieces_eq]

/-- The last of the trimmed pieces names a component. -/
theorem exists_last_component {ps : List (List Char)} (hne : trimPieces ps ≠ []) :
    ∃ c, named ps = named (trimPieces ps).dropLast ++ [c] := by
  have hlast : ¬ isSilent ((trimPieces ps).getLast hne) = true :=
    List.rdropWhile_last_not isSilent ps hne
  obtain ⟨c, hc⟩ := Option.ne_none_iff_exists'.mp (mt component?_eq_none_iff.mp hlast)
  refine ⟨c, ?_⟩
  rw [← named_trimPieces]
  conv_lhs => rw [← List.dropLast_append_getLast hne]
  simp [named, hc]

/-! ## The start of a path -/

theorem joined_cons_cons (c : Char) (p : List Char) (ps : List (List Char)) :
    joined '/' ((c :: p) :: ps) = c :: joined '/' (p :: ps) := by
  cases ps <;> rfl

/-- The text begins with a slash, or it is a dot or begins with one that stands alone. -/
inductive Begins : List Char → Prop
  | slash (rest : List Char) : Begins ('/' :: rest)
  | dot : Begins ['.']
  | dotSlash (rest : List Char) : Begins ('.' :: '/' :: rest)

theorem splitStart_of_not_begins {s : List Char} (h : ¬ Begins s) : splitStart s = ([], s) := by
  unfold splitStart
  split
  · exact absurd (.slash _) h
  · exact absurd .dot h
  · exact absurd (.dotSlash _) h
  · rfl

/-- The first pieces of a text that begins with no component of its own do not begin with one. -/
theorem not_begins_joined {s : List Char} (h : ¬ Begins s) {qs : List (List Char)}
    (hqs : qs <+: pieces '/' s) : ¬ Begins (joined '/' qs) := by
  cases qs with
  | nil => nofun
  | cons q qs =>
      cases s with
      | nil =>
          obtain ⟨rfl, hrest⟩ := List.cons_prefix_cons.mp hqs
          obtain rfl := List.prefix_nil.mp hrest
          nofun
      | cons c cs =>
          have hslash : c ≠ '/' := by
            rintro rfl
            exact h (.slash cs)
          obtain ⟨p, ps, hcs, hs⟩ := Text.pieces_cons_of_ne hslash cs
          rw [hs] at hqs
          obtain ⟨rfl, -⟩ := List.cons_prefix_cons.mp hqs
          rw [joined_cons_cons]
          by_cases hdot : c = '.'
          · -- a dot is followed by another character of its piece
            subst hdot
            cases cs with
            | nil => exact absurd .dot h
            | cons d ds =>
                have hd : d ≠ '/' := by
                  rintro rfl
                  exact h (.dotSlash ds)
                obtain ⟨p', ps', -, hds⟩ := Text.pieces_cons_of_ne hd ds
                rw [hds] at hcs
                obtain ⟨rfl, rfl⟩ := List.cons.inj hcs
                rw [joined_cons_cons]
                intro hbegins
                cases hbegins
                exact hd rfl
          · intro hbegins
            generalize joined '/' (p :: qs) = rest at hbegins
            cases hbegins with
            | slash => exact hslash rfl
            | dot => exact hdot rfl
            | dotSlash => exact hdot rfl

/-- Some of the first pieces of a path, after its start, make up a path with that start. -/
theorem splitStart_append {s : List Char} {qs : List (List Char)}
    (hqs : qs <+: pieces '/' (splitStart s).2) :
    splitStart ((splitStart s).1 ++ joined '/' qs) = ((splitStart s).1, joined '/' qs) := by
  by_cases h : Begins s
  · cases h with
    | slash rest => rfl
    | dot =>
        -- after a dot alone there is one piece, which is empty
        have hempty : joined '/' qs = [] := by
          cases qs with
          | nil => rfl
          | cons q qs =>
              obtain ⟨rfl, hrest⟩ := List.cons_prefix_cons.mp hqs
              obtain rfl := List.prefix_nil.mp hrest
              rfl
        rw [hempty]
        rfl
    | dotSlash rest =>
        cases qs with
        | nil => rfl
        | cons q qs =>
            have hpieces : pieces '/' (splitStart ('.' :: '/' :: rest)).2 = [] :: pieces '/' rest := rfl
            rw [hpieces] at hqs
            obtain ⟨rfl, -⟩ := List.cons_prefix_cons.mp hqs
            cases qs <;> rfl
  · rw [splitStart_of_not_begins h] at hqs ⊢
    exact splitStart_of_not_begins (not_begins_joined h hqs)

/-- The components of such a path. -/
theorem components_append {s : List Char} {qs : List (List Char)}
    (hqs : qs <+: pieces '/' (splitStart s).2) :
    components ((splitStart s).1 ++ joined '/' qs) =
      (startComponent? (splitStart s).1).toList ++ named qs := by
  rw [components, splitStart_append hqs]
  congr 1
  cases qs with
  | nil => rfl
  | cons q qs =>
      have hno : ∀ p ∈ q :: qs, '/' ∉ p := by
        intro p hp
        exact Text.not_mem_of_mem_pieces (hqs.subset hp)
      rw [Text.pieces_joined (by simp) hno, named]

/-! ## The directory that a path is in -/

theorem parentChars?_eq (s : List Char) : parentChars? s =
    match trimPieces (pieces '/' (splitStart s).2) with
    | [] => if (splitStart s).1 = ['.'] then some [] else none
    | ps => some ((splitStart s).1 ++ joined '/' (trimPieces ps.dropLast)) :=
  rfl

/-- **The directory that a path is in** has all components of the path but the last. -/
theorem exists_of_parentChars? {s p : List Char} (h : parentChars? s = some p) :
    ∃ c, components s = components p ++ [c] := by
  rw [parentChars?_eq] at h
  by_cases hps : trimPieces (pieces '/' (splitStart s).2) = []
  · -- without a piece that names something, only a dot is in a directory, the empty path
    rw [hps] at h
    dsimp only at h
    split at h
    · next hdot =>
        cases h
        refine ⟨.here, ?_⟩
        rw [components, hdot]
        show _ ++ named (pieces '/' (splitStart s).2) = _
        rw [← named_trimPieces, hps]
        rfl
    · cases h
  · obtain ⟨c, hc⟩ := exists_last_component hps
    refine ⟨c, ?_⟩
    have hp : p = (splitStart s).1 ++ joined '/' (trimPieces (trimPieces
        (pieces '/' (splitStart s).2)).dropLast) := by
      cases htrimmed : trimPieces (pieces '/' (splitStart s).2) with
      | nil => exact absurd htrimmed hps
      | cons q qs =>
          rw [htrimmed] at h
          exact (Option.some.inj h).symm
    have hfirst : trimPieces (trimPieces (pieces '/' (splitStart s).2)).dropLast <+:
        pieces '/' (splitStart s).2 :=
      ((List.rdropWhile_prefix _ _).trans (List.dropLast_prefix _)).trans
        (List.rdropWhile_prefix _ _)
    rw [hp, components_append hfirst, named_trimPieces, List.append_assoc, ← hc]
    rfl

theorem IsPrefix.parent {p q : String} (h : parent? q = some p) : IsPrefix p q := by
  obtain ⟨chars, hchars, rfl⟩ := Option.map_eq_some_iff.mp h
  obtain ⟨c, hc⟩ := exists_of_parentChars? hchars
  rw [IsPrefix, hc, String.toList_ofList]
  exact List.prefix_append _ _

end Path

end ConfigDrive
