/-
# ConfigDrive.Proofs.Text.Cutting — lines and fields of a text that was put together.

Lines that are written one after the other, each with a line feed, are read as they were, as long as none
of them holds a line feed or ends in a carriage return.  In general the lines of a text are its pieces
between line feeds, but for carriage returns at their ends and an empty piece at the end of the text; to
what does not care for these, lines and pieces are the same (`filterMap_lines`).

The fields of a text are what is left of its pieces between blanks when the empty ones are dropped
(`fields_eq`), so the fields on both sides of a blank are the fields of the whole.
-/
import ConfigDrive.Text.Blank
import ConfigDrive.Text.Lines

namespace ConfigDrive.Text

/-! ## Lines -/

/-- A line that has an end is the first one. -/
theorem lines_append_newline {l : List Char} (hnewline : '\n' ∉ l) (hreturn : l.getLast? ≠ some '\r')
    (rest : List Char) : lines (l ++ '\n' :: rest) = l :: lines rest := by
  induction l with
  | nil => rfl
  | cons c l ih =>
      have hc : c ≠ '\n' := fun heq => hnewline (heq ▸ List.mem_cons_self ..)
      have hl : '\n' ∉ l := fun hmem => hnewline (List.mem_cons_of_mem _ hmem)
      have hrest : lines (l ++ '\n' :: rest) = l :: lines rest := by
        cases l with
        | nil => rfl
        | cons d l =>
            rw [List.getLast?_cons_cons] at hreturn
            exact ih hl hreturn
      rw [List.cons_append, lines]
      · rw [hrest]
      · exact hc
      · rintro cs rfl heq
        -- a carriage return before the end would be the last character of the line
        cases l with
        | nil => exact hreturn rfl
        | cons d l =>
            cases heq
            exact hl (List.mem_cons_self ..)

/-- A line starts after this text. -/
def StartsLine (before : List Char) : Prop :=
  before = [] ∨ ∃ s, before = s ++ ['\n']

/-- A line ends before this text. -/
def EndsLine (after : List Char) : Prop :=
  after = [] ∨ ∃ s, after = '\n' :: s

/-- A line that ends in a carriage return and a line feed is the first one, without them. -/
theorem lines_append_return {l : List Char} (hnewline : '\n' ∉ l) (rest : List Char) :
    lines (l ++ '\r' :: '\n' :: rest) = l :: lines rest := by
  induction l with
  | nil => rfl
  | cons c l ih =>
      have hc : c ≠ '\n' := fun heq => hnewline (heq ▸ List.mem_cons_self ..)
      have hl : '\n' ∉ l := fun hmem => hnewline (List.mem_cons_of_mem _ hmem)
      rw [List.cons_append, lines]
      · rw [ih hl]
      · exact hc
      · rintro cs rfl heq
        cases l with
        | nil => cases heq
        | cons d l =>
            cases heq
            exact hl (List.mem_cons_self ..)

/-- **A line that has an end is the first one**, but for a carriage return at its end. -/
theorem exists_lines_append_newline {l : List Char} (hnewline : '\n' ∉ l) (rest : List Char) :
    ∃ l', (l' = l ∨ l = l' ++ ['\r']) ∧ lines (l ++ '\n' :: rest) = l' :: lines rest := by
  by_cases hreturn : l.getLast? = some '\r'
  · obtain ⟨l', rfl⟩ := List.getLast?_eq_some_iff.mp hreturn
    have hl' : '\n' ∉ l' := fun hmem => hnewline (List.mem_append_left _ hmem)
    refine ⟨l', .inr rfl, ?_⟩
    rw [List.append_assoc]
    exact lines_append_return hl' rest
  · exact ⟨l, .inl rfl, lines_append_newline hnewline hreturn rest⟩

/-- A text without a line feed is a line of its own, unless it is empty. -/
theorem lines_of_not_newline {l : List Char} (hnewline : '\n' ∉ l) (hne : l ≠ []) :
    lines l = [l] := by
  induction l with
  | nil => exact absurd rfl hne
  | cons c l ih =>
      have hc : c ≠ '\n' := fun heq => hnewline (heq ▸ List.mem_cons_self ..)
      have hl : '\n' ∉ l := fun hmem => hnewline (List.mem_cons_of_mem _ hmem)
      rw [lines]
      · cases l with
        | nil => rfl
        | cons d l => rw [ih hl (List.cons_ne_nil d l)]
      · exact hc
      · rintro cs - rfl
        exact hl (List.mem_cons_self ..)

/-- Induction on a text line by line. -/
@[elab_as_elim]
theorem line_induction {motive : List Char → Prop} (last : ∀ l, '\n' ∉ l → motive l)
    (line : ∀ l rest, '\n' ∉ l → motive rest → motive (l ++ '\n' :: rest)) (s : List Char) :
    motive s := by
  by_cases hs : '\n' ∈ s
  · obtain ⟨l, rest, heq, hl⟩ := List.eq_append_cons_of_mem hs
    have hshorter : rest.length < s.length := by
      rw [heq, List.length_append, List.length_cons]
      omega
    rw [heq]
    exact line l rest hl (line_induction last line rest)
  · exact last s hs
termination_by s.length

/-- **What does not care for empty lines and carriage returns** finds the same in the lines of a text and
in its pieces between line feeds. -/
theorem filterMap_lines {β : Type} {f : List Char → Option β} (hnil : f [] = none)
    (hreturn : ∀ l, f (l ++ ['\r']) = f l) (s : List Char) :
    (lines s).filterMap f = (s.splitOn '\n').filterMap f := by
  induction s using line_induction with
  | last l hl =>
      rw [List.splitOn_eq_singleton hl]
      cases l with
      | nil => rw [lines, List.filterMap_cons, hnil]
      | cons c l => rw [lines_of_not_newline hl (List.cons_ne_nil c l)]
  | line l rest hl ih =>
      obtain ⟨l', hl', hlines⟩ := exists_lines_append_newline hl rest
      have hf : f l' = f l := by
        rcases hl' with rfl | rfl
        · rfl
        · exact (hreturn l').symm
      rw [hlines, List.splitOn_append_cons_self, List.splitOn_eq_singleton hl, List.filterMap_cons, hf,
        ih]
      rfl

/-- **Lines are read as they were written.** -/
theorem lines_flatMap {ls : List (List Char)} (hnewline : ∀ l ∈ ls, '\n' ∉ l)
    (hreturn : ∀ l ∈ ls, l.getLast? ≠ some '\r') : lines (ls.flatMap (· ++ ['\n'])) = ls := by
  induction ls with
  | nil => rfl
  | cons l ls ih =>
      obtain ⟨hl, hls⟩ := List.forall_mem_cons.mp hnewline
      obtain ⟨hl', hls'⟩ := List.forall_mem_cons.mp hreturn
      rw [List.flatMap_cons, List.append_assoc, List.singleton_append,
        lines_append_newline hl hl', ih hls hls']

/-! ## Fields -/

/-- The first piece is empty if a blank or the end comes first. -/
theorem isEmpty_of_splitOnP {s f : List Char} {fs : List (List Char)}
    (h : s.splitOnP isBlank = f :: fs) : f.isEmpty = s.head?.all isBlank := by
  cases s with
  | nil =>
      cases h
      rfl
  | cons c s =>
      rw [List.splitOnP_cons_eq_if_modifyHead] at h
      rw [List.head?_cons, Option.all_some]
      by_cases hc : isBlank c = true
      · rw [if_pos hc] at h
        cases h
        exact hc.symm
      · obtain ⟨g, gs, hg⟩ := List.exists_cons_of_ne_nil (List.splitOnP_ne_nil isBlank s)
        rw [if_neg hc, hg] at h
        cases h
        exact (Bool.not_eq_true _ ▸ hc).symm

theorem consField_apart (c : Char) (fs : List (List Char)) : consField c true fs = [c] :: fs := by
  cases fs <;> rfl

/-- The fields of a text are its pieces between blanks that are not empty. -/
theorem fields_eq (s : List Char) :
    fields s = (s.splitOnP isBlank).filter fun f => !f.isEmpty := by
  induction s with
  | nil => rfl
  | cons c s ih =>
      rw [fields, ih, List.splitOnP_cons_eq_if_modifyHead]
      by_cases hc : isBlank c = true
      · rw [if_pos hc, if_pos hc]
        rfl
      · obtain ⟨f, fs, hf⟩ := List.exists_cons_of_ne_nil (List.splitOnP_ne_nil isBlank s)
        rw [if_neg hc, if_neg hc, hf, ← isEmpty_of_splitOnP hf]
        -- the character belongs to the first piece, and this is a field of its own if it was empty
        cases f with
        | nil => exact consField_apart c _
        | cons d f => rfl

/-- The fields on both sides of a blank. -/
theorem fields_append_blank (s : List Char) {c : Char} (h : isBlank c = true) (t : List Char) :
    fields (s ++ c :: t) = fields s ++ fields t := by
  rw [fields_eq, List.splitOnP_append_cons s t h, List.filter_append, ← fields_eq, ← fields_eq]

/-- A text without blanks is its only field. -/
theorem fields_of_not_blank {s : List Char} (h : ∀ c ∈ s, isBlank c = false) (hne : s ≠ []) :
    fields s = [s] := by
  rw [fields_eq, List.splitOnP_eq_singleton h]
  cases s with
  | nil => exact absurd rfl hne
  | cons c s => rfl

end ConfigDrive.Text
