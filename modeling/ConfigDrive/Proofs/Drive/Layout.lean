/-
# ConfigDrive.Proofs.Drive.Layout — how a mount table is laid out does not matter.

Each line of a table stands for itself: it lists one mount if it has at least four words, and none
otherwise (`entries_eq`).  So a table that is put together from two lists the mounts of both
(`entries_append_newline`), and what is done to one line has no effect on any other.

In a line only the first four words count.  Blanks between words and around them may be exchanged for
others, words may follow the fourth, and a line may end in a carriage return: `Relaid` lists these edits,
and no number of them changes what a table lists (`entries_of_eqvGen`).
-/
import ConfigDrive.Drive.MountTable
import ConfigDrive.Proofs.Text.Cutting
import Mathlib.Logic.Relation

namespace ConfigDrive.Drive.MountTable

open ConfigDrive.Text (EndsLine StartsLine isBlank)

/-! ## Lines -/

/-- The words of a line: what stands between blanks. -/
def words (line : List Char) : List (List Char) :=
  (line.splitOnP isBlank).filter fun w => !w.isEmpty

/-- The mount that a line with these words lists: there is one if there are at least four words, made of
the first four of them. -/
def listed? (ws : List (List Char)) : Option MountEntry :=
  if h : 4 ≤ ws.length then
    some
      { source := String.ofList (Text.Octal.unescape ws[0])
        target := String.ofList (Text.Octal.unescape ws[1])
        fsType := String.ofList ws[2]
        options := String.ofList ws[3] }
  else none

theorem entry?_eq (line : List Char) : entry? line = listed? (words line) := by
  rw [MountTable.entry?, Text.fields_eq, ← words, listed?]
  match words line with
  | [] => rfl
  | [_] => rfl
  | [_, _] => rfl
  | [_, _, _] => rfl
  | _ :: _ :: _ :: _ :: _ => rw [dif_pos (by simp only [List.length_cons]; omega)]; rfl

/-- Words after the fourth do not count. -/
theorem listed?_append {ws : List (List Char)} (h : 4 ≤ ws.length) (more : List (List Char)) :
    listed? (ws ++ more) = listed? ws := by
  have happend : 4 ≤ (ws ++ more).length := by
    rw [List.length_append]
    omega
  rw [listed?, listed?, dif_pos happend, dif_pos h]
  simp only [List.getElem_append_left (show 0 < ws.length by omega),
    List.getElem_append_left (show 1 < ws.length by omega),
    List.getElem_append_left (show 2 < ws.length by omega),
    List.getElem_append_left (show 3 < ws.length by omega)]

theorem words_append_blank (s : List Char) {c : Char} (h : isBlank c = true) (t : List Char) :
    words (s ++ c :: t) = words s ++ words t := by
  rw [words, List.splitOnP_append_cons s t h, List.filter_append]
  rfl

theorem words_of_blank_append {w : List Char} (h : ∀ c ∈ w, isBlank c = true) (s : List Char) :
    words (w ++ s) = words s := by
  induction w with
  | nil => rfl
  | cons c w ih =>
      obtain ⟨hc, hw⟩ := List.forall_mem_cons.mp h
      exact (words_append_blank [] hc (w ++ s)).trans (ih hw)

/-- **Each line of a table stands for itself.** -/
theorem entries_eq (text : List Char) :
    (ofChars text).entries = (text.splitOn '\n').filterMap fun line => listed? (words line) := by
  have hreturn : ∀ l, listed? (words (l ++ ['\r'])) = listed? (words l) := by
    intro l
    rw [words_append_blank l rfl]
    exact congrArg listed? (List.append_nil _)
  rw [ofChars, funext entry?_eq, Text.filterMap_lines rfl hreturn]

theorem entries_append_newline (x y : List Char) :
    (ofChars (x ++ '\n' :: y)).entries = (ofChars x).entries ++ (ofChars y).entries := by
  rw [entries_eq, entries_eq, entries_eq, List.splitOn_append_cons_self, List.filterMap_append]

/-- A line alone lists what its words say. -/
theorem entries_line {line : List Char} (h : '\n' ∉ line) :
    (ofChars line).entries = (listed? (words line)).toList := by
  rw [entries_eq, List.splitOn_eq_singleton h, List.filterMap_cons]
  cases listed? (words line) <;> rfl

/-! ## Edits of the layout -/

/-- Blanks that may set words of a line apart. -/
structure IsGap (w : List Char) : Prop where
  ne_nil : w ≠ []
  isBlank : ∀ c ∈ w, Text.isBlank c = true
  newline_not_mem : '\n' ∉ w

/-- An edit of the layout of a table. -/
inductive Relaid : List Char → List Char → Prop
  /-- Blanks in a line are exchanged for others. -/
  | respace {v w : List Char} (hv : IsGap v) (hw : IsGap w) (before after : List Char) :
      Relaid (before ++ v ++ after) (before ++ w ++ after)
  /-- Blanks are added at the start of a line. -/
  | indent {w : List Char} (hw : IsGap w) {before : List Char} (hstart : StartsLine before)
      (after : List Char) : Relaid (before ++ after) (before ++ w ++ after)
  /-- Blanks are added at the end of a line. -/
  | trail {w : List Char} (hw : IsGap w) (before : List Char) {after : List Char}
      (hend : EndsLine after) : Relaid (before ++ after) (before ++ w ++ after)
  /-- Words are appended to a line that has at least four. -/
  | extend {line w more : List Char} (hline : '\n' ∉ line) (hwords : 4 ≤ (words line).length)
      (hw : IsGap w) (hmore : '\n' ∉ more) {before after : List Char} (hstart : StartsLine before)
      (hend : EndsLine after) :
      Relaid (before ++ line ++ after) (before ++ (line ++ w ++ more) ++ after)
  /-- A line feed gets a carriage return. -/
  | carriage (before after : List Char) :
      Relaid (before ++ '\n' :: after) (before ++ '\r' :: '\n' :: after)

/-! ## The line of an edit -/

theorem exists_startsLine (before : List Char) :
    ∃ s line, before = s ++ line ∧ StartsLine s ∧ '\n' ∉ line ∧ (StartsLine before → line = []) := by
  by_cases hstart : StartsLine before
  · exact ⟨before, [], (List.append_nil before).symm, hstart, List.not_mem_nil, fun _ => rfl⟩
  by_cases hmem : '\n' ∈ before
  · -- the line begins after the last line feed
    obtain ⟨line, s, hreverse, hline⟩ := List.eq_append_cons_of_mem (List.mem_reverse.mpr hmem)
    have hbefore : before = (s.reverse ++ ['\n']) ++ line.reverse := by
      rw [← List.reverse_reverse before, hreverse, List.reverse_append, List.reverse_cons]
    exact ⟨_, _, hbefore, .inr ⟨_, rfl⟩, fun h => hline (List.mem_reverse.mp h),
      fun h => absurd h hstart⟩
  · exact ⟨[], before, rfl, .inl rfl, hmem, fun h => absurd h hstart⟩

theorem exists_endsLine (after : List Char) :
    ∃ line s, after = line ++ s ∧ EndsLine s ∧ '\n' ∉ line ∧ (EndsLine after → line = []) := by
  by_cases hend : EndsLine after
  · exact ⟨[], after, rfl, hend, List.not_mem_nil, fun _ => rfl⟩
  by_cases hmem : '\n' ∈ after
  · obtain ⟨line, s, hafter, hline⟩ := List.eq_append_cons_of_mem hmem
    exact ⟨line, '\n' :: s, hafter, .inr ⟨s, rfl⟩, hline, fun h => absurd h hend⟩
  · exact ⟨after, [], (List.append_nil after).symm, .inl rfl, hmem, fun h => absurd h hend⟩

theorem entries_append_of_endsLine {x y after : List Char} (hend : EndsLine after)
    (h : (ofChars x).entries = (ofChars y).entries) :
    (ofChars (x ++ after)).entries = (ofChars (y ++ after)).entries := by
  rcases hend with rfl | ⟨s, rfl⟩
  · rw [List.append_nil, List.append_nil, h]
  · rw [entries_append_newline, entries_append_newline, h]

theorem entries_append_of_startsLine {x y before : List Char} (hstart : StartsLine before)
    (h : (ofChars x).entries = (ofChars y).entries) :
    (ofChars (before ++ x)).entries = (ofChars (before ++ y)).entries := by
  rcases hstart with rfl | ⟨s, rfl⟩
  · exact h
  · rw [List.append_assoc, List.append_assoc, List.singleton_append, List.singleton_append,
      entries_append_newline, entries_append_newline, h]

/-- **An edit in a line is a matter of that line alone.** -/
theorem entries_edit {x y before after : List Char} (hx : '\n' ∉ x) (hy : '\n' ∉ y)
    (h : ∀ b a, (StartsLine before → b = []) → (EndsLine after → a = []) →
      listed? (words (b ++ x ++ a)) = listed? (words (b ++ y ++ a))) :
    (ofChars (before ++ x ++ after)).entries = (ofChars (before ++ y ++ after)).entries := by
  obtain ⟨s, b, rfl, hs, hb, hstart⟩ := exists_startsLine before
  obtain ⟨a, t, rfl, ht, ha, hend⟩ := exists_endsLine after
  have hregroup : ∀ z, s ++ b ++ z ++ (a ++ t) = s ++ ((b ++ z ++ a) ++ t) := by
    intro z
    simp only [List.append_assoc]
  have hline : ∀ z, '\n' ∉ z → (ofChars (b ++ z ++ a)).entries =
      (listed? (words (b ++ z ++ a))).toList := by
    intro z hz
    exact entries_line (by simp [hb, hz, ha])
  rw [hregroup, hregroup]
  refine entries_append_of_startsLine hs (entries_append_of_endsLine ht ?_)
  rw [hline x hx, hline y hy, h b a hstart hend]

/-! ## Edits change nothing -/

theorem words_gap {w : List Char} (hw : IsGap w) (s t : List Char) :
    words (s ++ w ++ t) = words s ++ words t := by
  obtain ⟨c, w', rfl⟩ := List.exists_cons_of_ne_nil hw.ne_nil
  obtain ⟨hc, hw'⟩ := List.forall_mem_cons.mp hw.isBlank
  rw [List.append_assoc, List.cons_append, words_append_blank s hc, words_of_blank_append hw']

/-- Blanks at the end of a line do not matter. -/
theorem entries_trail {w : List Char} (hw : IsGap w) (before : List Char) {after : List Char}
    (hend : EndsLine after) :
    (ofChars (before ++ after)).entries = (ofChars (before ++ w ++ after)).entries := by
  have hedit : (ofChars (before ++ [] ++ after)).entries = (ofChars (before ++ w ++ after)).entries := by
    refine entries_edit List.not_mem_nil hw.newline_not_mem fun b a _ ha => ?_
    rw [ha hend, words_gap hw, List.append_nil, List.append_nil]
    exact congrArg listed? (List.append_nil _).symm
  rwa [List.append_nil] at hedit

/-- Blanks at the start of a line do not matter. -/
theorem entries_indent {w : List Char} (hw : IsGap w) {before : List Char}
    (hstart : StartsLine before) (after : List Char) :
    (ofChars (before ++ after)).entries = (ofChars (before ++ w ++ after)).entries := by
  have hedit : (ofChars (before ++ [] ++ after)).entries = (ofChars (before ++ w ++ after)).entries := by
    refine entries_edit List.not_mem_nil hw.newline_not_mem fun b a hb _ => ?_
    rw [hb hstart, words_gap hw]
    rfl
  rwa [List.append_nil] at hedit

/-- **An edit of the layout changes nothing that is listed.** -/
theorem Relaid.entries_eq {s t : List Char} (h : Relaid s t) :
    (ofChars s).entries = (ofChars t).entries := by
  cases h with
  | respace hv hw before after =>
      refine entries_edit hv.newline_not_mem hw.newline_not_mem fun b a _ _ => ?_
      rw [words_gap hv, words_gap hw]
  | indent hw hstart after => exact entries_indent hw hstart after
  | trail hw before hend => exact entries_trail hw before hend
  | extend hline hwords hw hmore hstart hend =>
      refine entries_edit hline (by simp [hline, hw.newline_not_mem, hmore]) fun b a hb ha => ?_
      rw [hb hstart, ha hend, List.append_nil, List.append_nil, List.nil_append, List.nil_append,
        words_gap hw, listed?_append hwords]
  | carriage before after =>
      have hreturn : IsGap ['\r'] := ⟨by decide, List.all_eq_true.1 (by decide), by decide⟩
      have htrail := entries_trail hreturn before (.inr ⟨after, rfl⟩)
      rwa [List.append_assoc] at htrail

/-- **Nor do any number of edits.** -/
theorem entries_of_eqvGen {s t : List Char} (h : Relation.EqvGen Relaid s t) :
    (ofChars s).entries = (ofChars t).entries := by
  induction h with
  | rel s t h => exact h.entries_eq
  | refl s => rfl
  | symm s t _ ih => exact ih.symm
  | trans r s t _ _ hrs hst => exact hrs.trans hst

/-! ## The layout of a table -/

/-- **Reading a mount table is local to its lines, and blind to their layout.**  Two texts on top of each
other list the mounts of both.  A text lists what its lines list, and a line lists one mount if it has at
least four words and none otherwise.  Texts that edits of the layout lead to list the same mounts. -/
theorem ofText_local :
    (∀ x y : String, (ofText (x ++ "\n" ++ y)).entries = (ofText x).entries ++ (ofText y).entries) ∧
      (∀ text : String, (ofText text).entries =
        (text.toList.splitOn '\n').filterMap fun line => listed? (words line)) ∧
      (∀ line : String, '\n' ∉ line.toList →
        (ofText line).entries.length = if 4 ≤ (words line.toList).length then 1 else 0) ∧
      ∀ s t : String, Relation.EqvGen Relaid s.toList t.toList →
        (ofText s).entries = (ofText t).entries := by
  refine ⟨?_, ?_, ?_, ?_⟩
  · intro x y
    have happend : (x ++ "\n" ++ y).toList = x.toList ++ '\n' :: y.toList := by
      rw [String.toList_append, String.toList_append, List.append_assoc]
      rfl
    rw [ofText, happend]
    exact entries_append_newline x.toList y.toList
  · intro text
    rw [ofText]
    exact entries_eq text.toList
  · intro line h
    rw [ofText, entries_line h, listed?]
    split <;> rfl
  · intro s t h
    rw [ofText, ofText]
    exact entries_of_eqvGen h

/-- A table with a broken line, and the same with another line end, other blanks and one more word. -/
theorem relaid_table_lists_same :
    Relation.EqvGen Relaid "x\na b c d".toList "x\r\na\t\u00a0b c d e".toList ∧
      (ofText "x\na b c d").entries = (ofText "x\r\na\t\u00a0b c d e").entries ∧
      (ofText "x").entries.length = 0 := by
  have hspace : IsGap [' '] := ⟨by decide, List.all_eq_true.1 (by decide), by decide⟩
  have hwide : IsGap ['\t', '\u00a0'] := ⟨by decide, List.all_eq_true.1 (by decide), by decide⟩
  have hcarriage : Relaid "x\na b c d".toList "x\r\na b c d".toList :=
    .carriage ['x'] "a b c d".toList
  have hrespace : Relaid "x\r\na b c d".toList "x\r\na\t\u00a0b c d".toList :=
    .respace hspace hwide "x\r\na".toList "b c d".toList
  have hextend : Relaid "x\r\na\t\u00a0b c d".toList "x\r\na\t\u00a0b c d e".toList :=
    @Relaid.extend "a\t\u00a0b c d".toList [' '] ['e'] (by decide) (by decide) hspace (by decide)
      "x\r\n".toList [] (.inr ⟨['x', '\r'], rfl⟩) (.inl rfl)
  have hedits : Relation.EqvGen Relaid "x\na b c d".toList "x\r\na\t\u00a0b c d e".toList :=
    ((Relation.EqvGen.rel _ _ hcarriage).trans _ _ _ (.rel _ _ hrespace)).trans _ _ _ (.rel _ _ hextend)
  exact ⟨hedits, ofText_local.2.2.2 _ _ hedits, ofText_local.2.2.1 "x" (by decide)⟩

end ConfigDrive.Drive.MountTable
