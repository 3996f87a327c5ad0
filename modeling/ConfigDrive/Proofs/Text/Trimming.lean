/-
# ConfigDrive.Proofs.Text.Trimming — what is left of a text without its blanks.

Trimming takes all blanks away from both ends and nothing else, so blanks that are added there do not
matter (`trim_append_of_blank`, `trim_of_blank_append`), and trimming twice is trimming once (`trim_trim`).

A line feed is a blank.  That makes the first line with something on it easy to tell without cutting a text
into lines: it is what comes first when leading blanks are gone, up to the next line feed
(`find?_trim_lines`).
-/
import ConfigDrive.Proofs.Text.Cutting
import Mathlib.Data.List.DropRight

namespace ConfigDrive.Text

variable {s w d : List Char}

/-! ## One end -/

theorem trimLeft_of_blank_append (h : ∀ c ∈ w, isBlank c = true) (s : List Char) :
    trimLeft (w ++ s) = trimLeft s :=
  List.dropWhile_append_of_pos h

theorem trimRight_append_of_blank (s : List Char) (h : ∀ c ∈ w, isBlank c = true) :
    trimRight (s ++ w) = trimRight s := by
  rw [trimRight, List.reverse_append, List.dropWhile_append_of_pos]
  · rfl
  · exact fun c hc => h c (List.mem_reverse.mp hc)

theorem trimLeft_eq_nil_iff : trimLeft s = [] ↔ ∀ c ∈ s, isBlank c = true :=
  List.dropWhile_eq_nil_iff

/-- Where something is left, what comes after it stays. -/
theorem trimLeft_append (h : trimLeft s ≠ []) (t : List Char) :
    trimLeft (s ++ t) = trimLeft s ++ t := by
  rw [trimLeft, List.dropWhile_append, if_neg]
  · rfl
  · exact fun hempty => h (List.isEmpty_iff.mp hempty)

/-- What is left begins with a character that is not blank. -/
theorem exists_of_trimLeft_ne_nil (h : trimLeft s ≠ []) :
    ∃ c t, trimLeft s = c :: t ∧ isBlank c = false := by
  obtain ⟨c, t, hs⟩ := List.exists_cons_of_ne_nil h
  have hhead := List.head?_dropWhile_not isBlank s
  rw [trimLeft] at hs
  rw [hs] at hhead
  exact ⟨c, t, hs, hhead⟩

theorem trimLeft_of_not_blank {c : Char} (h : isBlank c = false) (t : List Char) :
    trimLeft (c :: t) = c :: t := by
  rw [trimLeft, List.dropWhile_cons_of_neg]
  rw [h]
  exact Bool.false_ne_true

theorem trimRight_of_not_blank {c : Char} (h : isBlank c = false) (t : List Char) :
    trimRight (t ++ [c]) = t ++ [c] := by
  refine List.rdropWhile_concat_neg isBlank t c ?_
  rw [h]
  exact Bool.false_ne_true

/-- What begins with a character that is not blank still does without its trailing blanks. -/
theorem exists_trimRight_cons {c : Char} (h : isBlank c = false) (t : List Char) :
    ∃ t', trimRight (c :: t) = c :: t' := by
  have hne : trimRight (c :: t) ≠ [] := by
    intro hnil
    have hblank := List.rdropWhile_eq_nil_iff.mp hnil c List.mem_cons_self
    exact nomatch hblank.symm.trans h
  obtain ⟨c', t', hs⟩ := List.exists_cons_of_ne_nil hne
  have hprefix : trimRight (c :: t) <+: c :: t := List.rdropWhile_prefix isBlank (c :: t)
  rw [hs] at hprefix
  rw [hs, (List.cons_prefix_cons.mp hprefix).1]
  exact ⟨t', rfl⟩

/-! ## Both ends -/

theorem trim_of_trimLeft_eq_nil (h : trimLeft s = []) : trim s = [] := by
  rw [trim, h]
  rfl

/-- **Blanks at the start do not matter.** -/
theorem trim_of_blank_append (h : ∀ c ∈ w, isBlank c = true) (s : List Char) :
    trim (w ++ s) = trim s := by
  rw [trim, trimLeft_of_blank_append h]
  rfl

/-- **Blanks at the end do not matter.** -/
theorem trim_append_of_blank (s : List Char) (h : ∀ c ∈ w, isBlank c = true) :
    trim (s ++ w) = trim s := by
  by_cases hs : trimLeft s = []
  · have happend : trimLeft (s ++ w) = [] := by
      rw [trimLeft_of_blank_append (trimLeft_eq_nil_iff.mp hs)]
      exact trimLeft_eq_nil_iff.mpr h
    rw [trim_of_trimLeft_eq_nil hs, trim_of_trimLeft_eq_nil happend]
  · rw [trim, trimLeft_append hs, trimRight_append_of_blank _ h]
    rfl

/-- Nothing is left exactly if there are blanks only. -/
theorem trim_eq_nil_iff : trim s = [] ↔ trimLeft s = [] := by
  refine ⟨fun h => ?_, trim_of_trimLeft_eq_nil⟩
  by_contra hne
  obtain ⟨c, t, hs, hc⟩ := exists_of_trimLeft_ne_nil hne
  obtain ⟨t', ht'⟩ := exists_trimRight_cons hc t
  rw [trim, hs, ht'] at h
  cases h

/-- **Trimming twice is trimming once.** -/
theorem trim_trim (s : List Char) : trim (trim s) = trim s := by
  by_cases hs : trimLeft s = []
  · rw [trim_of_trimLeft_eq_nil hs]
    rfl
  · obtain ⟨c, t, hs, hc⟩ := exists_of_trimLeft_ne_nil hs
    obtain ⟨t', ht'⟩ := exists_trimRight_cons hc t
    have hright : trimRight (trimRight (c :: t)) = trimRight (c :: t) :=
      List.rdropWhile_idempotent isBlank (c :: t)
    rw [trim, trim, hs, ht', trimLeft_of_not_blank hc, ← ht', hright]

/-! ## Lines -/

theorem newline_not_mem_trimLeft (h : '\n' ∉ s) : '\n' ∉ trimLeft s :=
  fun hmem => h ((List.dropWhile_sublist isBlank).subset hmem)

/-- A text begins with its first line. -/
theorem takeWhile_line (h : '\n' ∉ s) {after : List Char} (hend : EndsLine after) :
    (s ++ after).takeWhile (· ≠ '\n') = s := by
  have hafter : after.takeWhile (· ≠ '\n') = [] := by
    rcases hend with rfl | ⟨rest, rfl⟩
    · rfl
    · exact List.takeWhile_cons_of_neg (by decide)
  rw [List.takeWhile_append_of_pos, hafter, List.append_nil]
  intro c hc
  exact decide_eq_true fun heq => h (heq ▸ hc)

/-- A carriage return at the end of a line does not matter. -/
theorem trim_eq_of_return {l l' : List Char} (h : l' = l ∨ l = l' ++ ['\r']) : trim l' = trim l := by
  rcases h with rfl | rfl
  · rfl
  · exact (trim_append_of_blank l' (List.forall_mem_singleton.mpr rfl)).symm

/-- **The first line, trimmed**, is what comes before the first line feed, trimmed. -/
theorem trim_head_lines (h : '\n' ∉ s) {after : List Char} (hend : EndsLine after) :
    trim ((lines (s ++ after)).head?.getD []) = trim s := by
  rcases hend with rfl | ⟨rest, rfl⟩
  · rw [List.append_nil]
    cases s with
    | nil => rfl
    | cons c s =>
        rw [lines_of_not_newline h (List.cons_ne_nil c s)]
        rfl
  · obtain ⟨l, hl, hlines⟩ := exists_lines_append_newline h rest
    rw [hlines]
    exact trim_eq_of_return hl

/-- The first line with something on it, trimmed: what comes first without leading blanks, up to the next
line feed. -/
def firstText? (s : List Char) : Option (List Char) :=
  if trimLeft s = [] then none else some (trimRight ((trimLeft s).takeWhile (· ≠ '\n')))

theorem firstText?_of_blank_append (h : ∀ c ∈ w, isBlank c = true) (s : List Char) :
    firstText? (w ++ s) = firstText? s := by
  rw [firstText?, trimLeft_of_blank_append h]
  rfl

/-- A line with something on it decides. -/
theorem firstText?_line (h : trim s ≠ []) (hs : '\n' ∉ s) {after : List Char} (hend : EndsLine after) :
    firstText? (s ++ after) = some (trim s) := by
  have hleft : trimLeft s ≠ [] := mt trim_of_trimLeft_eq_nil h
  rw [firstText?, trimLeft_append hleft, if_neg (List.append_ne_nil_of_left_ne_nil hleft _),
    takeWhile_line (newline_not_mem_trimLeft hs) hend]
  rfl

/-- **The first line that is not blank** is found without cutting a text into lines. -/
theorem find?_trim_lines (s : List Char) :
    ((lines s).map trim).find? (!·.isEmpty) = firstText? s := by
  induction s using line_induction with
  | last l hl =>
      cases l with
      | nil => rfl
      | cons c l =>
          rw [lines_of_not_newline hl (List.cons_ne_nil c l), List.map_singleton,
            List.find?_singleton]
          by_cases hblank : trim (c :: l) = []
          · rw [firstText?, if_pos (trim_eq_nil_iff.mp hblank), hblank]
            rfl
          · have hline := firstText?_line hblank hl (.inl rfl)
            rw [List.append_nil] at hline
            rw [hline, List.isEmpty_eq_false_iff.mpr hblank]
            rfl
  | line l rest hl ih =>
      obtain ⟨l', hl', hlines⟩ := exists_lines_append_newline hl rest
      rw [hlines, List.map_cons, List.find?_cons, trim_eq_of_return hl', ih]
      by_cases hblank : trim l = []
      · rw [hblank, firstText?_of_blank_append (trimLeft_eq_nil_iff.mp (trim_eq_nil_iff.mp hblank))]
        -- the line feed is a blank as well
        exact (firstText?_of_blank_append (List.forall_mem_singleton.mpr rfl) rest).symm
      · rw [firstText?_line hblank hl (.inr ⟨rest, rfl⟩), List.isEmpty_eq_false_iff.mpr hblank]
        rfl

/-! ## A text and the blanks around it -/

/-- A text on one line without blanks at its ends. -/
structure IsTrimmedLine (d : List Char) : Prop where
  ne_nil : d ≠ []
  newline_not_mem : '\n' ∉ d
  not_blank_first : ∀ c ∈ d.head?, isBlank c = false
  not_blank_last : ∀ c ∈ d.getLast?, isBlank c = false

namespace IsTrimmedLine

theorem trimLeft_append (h : IsTrimmedLine d) (s : List Char) : trimLeft (d ++ s) = d ++ s := by
  obtain ⟨c, t, rfl⟩ := List.exists_cons_of_ne_nil h.ne_nil
  exact trimLeft_of_not_blank (h.not_blank_first c rfl) (t ++ s)

theorem trimRight_eq (h : IsTrimmedLine d) : trimRight d = d := by
  have hlast := h.not_blank_last _ (List.getLast?_eq_some_getLast h.ne_nil)
  have hconcat := trimRight_of_not_blank hlast d.dropLast
  rwa [List.dropLast_append_getLast h.ne_nil] at hconcat

/-- Blanks around a text do not matter. -/
theorem trim_eq (h : IsTrimmedLine d) {lead padding : List Char} (hlead : ∀ c ∈ lead, isBlank c = true)
    (hpadding : ∀ c ∈ padding, isBlank c = true) : trim (lead ++ d ++ padding) = d := by
  rw [trim_append_of_blank _ hpadding, trim_of_blank_append hlead, trim, ← List.append_nil d,
    h.trimLeft_append, List.append_nil, h.trimRight_eq]

end IsTrimmedLine

end ConfigDrive.Text
