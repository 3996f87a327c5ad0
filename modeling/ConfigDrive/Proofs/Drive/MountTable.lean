/-
# ConfigDrive.Proofs.Drive.MountTable — reading a mount table that the kernel wrote.

The kernel writes one line for each mount.  In the source and the target it escapes the space, the tab,
the line feed and the backslash, and leaves every other character as it is.  The reader undoes the escapes
(`unescape_escaped`), but it cuts a line into fields at every blank, and there are blanks that are not
escaped, such as the no-break space or the carriage return.  A source or a target that holds one is read
as several fields.

So a mount is read as it is when its source and target hold none of these **stray** blanks
(`readTarget?_of_isPlain`).  In general the target that is read is the second of the parts between stray
blanks (`Mount.readTarget?`), and a target is found in the table when it is read for one of the mounts
(`hasTarget_table`).
-/
import ConfigDrive.Drive.MountTable
import ConfigDrive.Proofs.Text.Cutting
import ConfigDrive.Proofs.Text.Octal

namespace ConfigDrive.Drive

open ConfigDrive.Text (isBlank fields)

/-! ## Escapes -/

/-- The characters that the kernel escapes. -/
def isEscaped (c : Char) : Bool :=
  c == ' ' || c == '\t' || c == '\n' || c == '\\'

/-- The octal digit of a value below eight. -/
def octalDigit (n : Nat) : Char :=
  Char.ofNat (0x30 + n)

/-- How the kernel writes a character of a source or a target. -/
def escapeChar (c : Char) : List Char :=
  if isEscaped c then
    ['\\', octalDigit (c.toNat / 64), octalDigit (c.toNat / 8 % 8), octalDigit (c.toNat % 8)]
  else [c]

/-- How the kernel writes a source or a target. -/
def escaped (s : List Char) : List Char :=
  s.flatMap escapeChar

theorem eq_of_isEscaped {c : Char} (h : isEscaped c = true) :
    c = ' ' ∨ c = '\t' ∨ c = '\n' ∨ c = '\\' := by
  simpa [isEscaped, or_assoc] using h

theorem escapeChar_of_not {c : Char} (h : ¬ isEscaped c = true) : escapeChar c = [c] :=
  if_neg h

/-- The kernel spells a text with escapes for some of its characters. -/
theorem spells_escaped (s : List Char) : Text.Octal.Spells (escaped s) s := by
  induction s with
  | nil => exact .nil
  | cons c s ih =>
      rw [escaped, List.flatMap_cons]
      by_cases hc : isEscaped c = true
      · have hescapes : escapeChar c = Text.Octal.escapes c := by
          rcases eq_of_isEscaped hc with rfl | rfl | rfl | rfl <;> rfl
        rw [hescapes]
        exact .escaped c ih
      · rw [escapeChar_of_not hc]
        refine .plain ?_ ih
        rintro rfl
        exact hc rfl

/-- **The reader undoes the escapes.** -/
theorem unescape_escaped (s : List Char) : Text.Octal.unescape (escaped s) = s :=
  Text.Octal.unescape_of_spells (spells_escaped s)

/-! ## Stray blanks -/

/-- A blank that is not escaped. -/
def isStray (c : Char) : Bool :=
  isBlank c && !isEscaped c

/-- The parts of a text between stray blanks. -/
def parts (s : List Char) : List (List Char) :=
  (s.splitOnP isStray).filter fun f => !f.isEmpty

/-- What is written for a character that is not stray has no blank. -/
theorem not_blank_of_mem_escapeChar {c d : Char} (hc : isStray c = false) (hd : d ∈ escapeChar c) :
    isBlank d = false := by
  by_cases hescaped : isEscaped c = true
  · have hnone : (escapeChar c).any isBlank = false := by
      rcases eq_of_isEscaped hescaped with rfl | rfl | rfl | rfl <;> rfl
    exact Bool.eq_false_of_not_eq_true (List.any_eq_false.mp hnone d hd)
  · rw [escapeChar_of_not hescaped, List.mem_singleton] at hd
    subst hd
    rw [isStray, Bool.eq_false_of_not_eq_true hescaped, Bool.not_false, Bool.and_true] at hc
    exact hc

/-- What has no separator comes before the first piece. -/
theorem splitOnP_append {p : Char → Bool} {l : List Char} (h : ∀ c ∈ l, p c = false) (s : List Char) :
    (l ++ s).splitOnP p = (s.splitOnP p).modifyHead (l ++ ·) := by
  induction l with
  | nil =>
      obtain ⟨f, fs, hf⟩ := List.exists_cons_of_ne_nil (List.splitOnP_ne_nil p s)
      rw [List.nil_append, hf]
      rfl
  | cons c l ih =>
      obtain ⟨hc, hl⟩ := List.forall_mem_cons.mp h
      obtain ⟨f, fs, hf⟩ := List.exists_cons_of_ne_nil (List.splitOnP_ne_nil p s)
      rw [List.cons_append, List.splitOnP_cons_eq_if_modifyHead, hc, ih hl, hf]
      rfl

theorem splitOnP_escaped (s : List Char) :
    (escaped s).splitOnP isBlank = (s.splitOnP isStray).map escaped := by
  induction s with
  | nil => rfl
  | cons c s ih =>
      rw [escaped, List.flatMap_cons, List.splitOnP_cons_eq_if_modifyHead]
      by_cases hc : isStray c = true
      · obtain ⟨hblank, hescaped⟩ := Bool.and_eq_true_iff.mp hc
        have hnot : ¬ isEscaped c = true := by
          rw [Bool.not_eq_true'] at hescaped
          rw [hescaped]
          exact Bool.false_ne_true
        rw [escapeChar_of_not hnot, List.singleton_append, List.splitOnP_cons_eq_if_modifyHead,
          if_pos hblank, if_pos hc, List.map_cons]
        exact congrArg ([] :: ·) ih
      · have hnot : ∀ d ∈ escapeChar c, isBlank d = false :=
          fun d hd => not_blank_of_mem_escapeChar (Bool.eq_false_of_not_eq_true hc) hd
        obtain ⟨f, fs, hf⟩ := List.exists_cons_of_ne_nil (List.splitOnP_ne_nil isStray s)
        rw [splitOnP_append hnot, if_neg hc]
        show ((escaped s).splitOnP isBlank).modifyHead _ = _
        rw [ih, hf]
        rfl

theorem isEmpty_escaped (s : List Char) : (escaped s).isEmpty = s.isEmpty := by
  cases s with
  | nil => rfl
  | cons c s =>
      rw [escaped, List.flatMap_cons, escapeChar]
      split <;> rfl

/-- **A source or target is read as its parts between stray blanks.** -/
theorem fields_escaped (s : List Char) : fields (escaped s) = (parts s).map escaped := by
  rw [Text.fields_eq, splitOnP_escaped, parts, List.filter_map]
  congr 2
  funext f
  exact congrArg (! ·) (isEmpty_escaped f)

/-- A text without stray blanks is read as a whole. -/
theorem parts_of_not_stray {s : List Char} (h : ∀ c ∈ s, isStray c = false) (hne : s ≠ []) :
    parts s = [s] := by
  rw [parts, List.splitOnP_eq_singleton h]
  cases s with
  | nil => exact absurd rfl hne
  | cons c s => rfl

/-! ## The table that the kernel writes -/

/-- A text that is written as it is and read as one field. -/
def IsField (s : String) : Prop :=
  s ≠ "" ∧ s.toList.any isBlank = false

instance (s : String) : Decidable (IsField s) :=
  inferInstanceAs (Decidable (s ≠ "" ∧ s.toList.any isBlank = false))

/-- A mount that the kernel lists: source and target are any texts that are not empty, and the other
fields are free of blanks. -/
structure Mount where
  source : String
  target : String
  fsType : String
  options : String
  more : List String := []
  source_ne : source ≠ ""
  target_ne : target ≠ ""
  isField : ∀ s ∈ fsType :: options :: more, IsField s

namespace Mount

/-- The fields that are written as they are. -/
def rest (m : Mount) : List (List Char) :=
  (m.fsType :: m.options :: m.more).map String.toList

/-- The line for a mount. -/
def line (m : Mount) : List Char :=
  Text.joined ' ' (escaped m.source.toList :: escaped m.target.toList :: m.rest)

/-- The table for some mounts. -/
def table (ms : List Mount) : String :=
  String.ofList ((ms.map line).flatMap (· ++ ['\n']))

/-- What is read for the fields of a mount: source and target fall into parts. -/
def words (m : Mount) : List (List Char) :=
  parts m.source.toList ++ parts m.target.toList ++ m.rest.map Text.Octal.unescape

/-- The target that is read for a mount, if its line has enough fields. -/
def readTarget? (m : Mount) : Option String :=
  if 4 ≤ m.words.length then m.words[1]?.map String.ofList else none

/-- No blank of the source or the target is stray. -/
def IsPlain (m : Mount) : Prop :=
  (m.source.toList ++ m.target.toList).any isStray = false

instance (m : Mount) : Decidable m.IsPlain :=
  inferInstanceAs (Decidable (_ = false))

end Mount

/-! ## Its lines -/

theorem mem_joined {sep c : Char} {ps : List (List Char)} (h : c ∈ Text.joined sep ps) :
    c = sep ∨ ∃ p ∈ ps, c ∈ p := by
  induction ps with
  | nil => cases h
  | cons p ps ih =>
      cases ps with
      | nil => exact .inr ⟨p, List.mem_singleton.mpr rfl, h⟩
      | cons q ps =>
          rcases List.mem_append.mp h with hp | hrest
          · exact .inr ⟨p, List.mem_cons_self .., hp⟩
          · rcases List.mem_cons.mp hrest with heq | hrest
            · exact .inl heq
            · obtain hsep | ⟨p', hp', hc⟩ := ih hrest
              · exact .inl hsep
              · exact .inr ⟨p', List.mem_cons_of_mem _ hp', hc⟩

/-- A text ends as its last piece does, if that is not empty. -/
theorem getLast?_joined {sep : Char} {ps : List (List Char)} {p : List Char} (hp : p ≠ []) :
    (Text.joined sep (ps ++ [p])).getLast? = p.getLast? := by
  have hsome : p.getLast?.isSome = true := by
    rw [List.getLast?_isSome]
    exact hp
  induction ps with
  | nil => rfl
  | cons q ps ih =>
      have hjoined : Text.joined sep (q :: (ps ++ [p])) = q ++ sep :: Text.joined sep (ps ++ [p]) := by
        cases ps <;> rfl
      rw [List.cons_append, hjoined, List.getLast?_append, List.getLast?_cons, ih]
      obtain ⟨c, hc⟩ := Option.isSome_iff_exists.mp hsome
      rw [hc]
      rfl

theorem fields_joined (ps : List (List Char)) : fields (Text.joined ' ' ps) = ps.flatMap fields := by
  induction ps with
  | nil => rfl
  | cons p ps ih =>
      cases ps with
      | nil => exact (List.append_nil _).symm
      | cons q ps =>
          show fields (p ++ ' ' :: Text.joined ' ' (q :: ps)) = _
          rw [Text.fields_append_blank p rfl, ih]
          rfl

theorem newline_not_mem_escaped (s : List Char) : '\n' ∉ escaped s := by
  intro hmem
  obtain ⟨c, -, hc⟩ := List.mem_flatMap.mp hmem
  by_cases hescaped : isEscaped c = true
  · have hnot : '\n' ∉ escapeChar c := by
      rcases eq_of_isEscaped hescaped with rfl | rfl | rfl | rfl <;> decide
    exact hnot hc
  · rw [escapeChar_of_not hescaped, List.mem_singleton] at hc
    subst hc
    exact hescaped rfl

namespace Mount

theorem isField_of_mem_rest {m : Mount} {f : List Char} (h : f ∈ m.rest) :
    f ≠ [] ∧ ∀ c ∈ f, isBlank c = false := by
  obtain ⟨s, hs, rfl⟩ := List.mem_map.mp h
  obtain ⟨hne, hblank⟩ := m.isField s hs
  refine ⟨fun heq => hne (String.toList_eq_nil_iff.mp heq), fun c hc => ?_⟩
  exact Bool.eq_false_of_not_eq_true (List.any_eq_false.mp hblank c hc)

theorem newline_not_mem_line (m : Mount) : '\n' ∉ m.line := by
  intro hmem
  obtain heq | ⟨p, hp, hc⟩ := mem_joined hmem
  · cases heq
  · rcases List.mem_cons.mp hp with rfl | hp
    · exact newline_not_mem_escaped _ hc
    · rcases List.mem_cons.mp hp with rfl | hp
      · exact newline_not_mem_escaped _ hc
      · exact nomatch (isField_of_mem_rest hp).2 _ hc

/-- A line ends with a field that has no blank. -/
theorem getLast?_line_ne (m : Mount) : m.line.getLast? ≠ some '\r' := by
  obtain ⟨fs, f, hrest⟩ : ∃ fs f, m.rest = fs ++ [f] :=
    ⟨_, _, (List.dropLast_append_getLast (by rw [rest]; exact List.cons_ne_nil _ _)).symm⟩
  obtain ⟨hne, hblank⟩ := isField_of_mem_rest (m := m) (f := f) (by simp [hrest])
  have hline : m.line = Text.joined ' '
      ((escaped m.source.toList :: escaped m.target.toList :: fs) ++ [f]) := by
    rw [line, hrest]
    rfl
  rw [hline, getLast?_joined hne]
  intro hlast
  exact nomatch hblank _ (List.mem_of_getLast? hlast)

theorem lines_table (ms : List Mount) : Text.lines (table ms).toList = ms.map line := by
  rw [table, String.toList_ofList]
  refine Text.lines_flatMap ?_ ?_
  · intro l hl
    obtain ⟨m, -, rfl⟩ := List.mem_map.mp hl
    exact m.newline_not_mem_line
  · intro l hl
    obtain ⟨m, -, rfl⟩ := List.mem_map.mp hl
    exact m.getLast?_line_ne

/-! ## Reading it -/

/-- **What is read for the fields of a line.** -/
theorem unescape_fields_line (m : Mount) :
    (fields m.line).map Text.Octal.unescape = m.words := by
  have hrest : m.rest.flatMap fields = m.rest := by
    have hsingle : ∀ f ∈ m.rest, fields f = [f] := by
      intro f hf
      obtain ⟨hne, hblank⟩ := isField_of_mem_rest hf
      exact Text.fields_of_not_blank hblank hne
    rw [List.flatMap_congr hsingle]
    exact List.flatMap_singleton' _
  have hparts : ∀ s, (fields (escaped s)).map Text.Octal.unescape = parts s := by
    intro s
    rw [fields_escaped, List.map_map]
    exact List.map_id'' unescape_escaped _
  rw [line, fields_joined, List.flatMap_cons, List.flatMap_cons, hrest, List.map_append,
    List.map_append, hparts, hparts, words, List.append_assoc]

end Mount

/-- The target of a line is its second field, if there are four. -/
theorem entry_target_eq (l : List Char) :
    (MountTable.entry? l).map MountEntry.target =
      if 4 ≤ ((fields l).map Text.Octal.unescape).length then
        ((fields l).map Text.Octal.unescape)[1]?.map String.ofList
      else none := by
  rw [MountTable.entry?, List.length_map]
  match fields l with
  | [] => rfl
  | [_] => rfl
  | [_, _] => rfl
  | [_, _, _] => rfl
  | source :: target :: fsType :: options :: more =>
      rw [if_pos (by simp only [List.length_cons]; omega)]
      rfl

namespace Mount

/-- **A target is found in the table when it is read for one of the mounts.** -/
theorem hasTarget_table (ms : List Mount) (target : String) :
    (MountTable.ofText (table ms)).hasTarget target =
      ms.any fun m => m.readTarget?.any (Path.same · target) := by
  rw [MountTable.hasTarget, MountTable.ofText, MountTable.ofChars, lines_table, List.any_filterMap,
    List.any_map]
  congr 1
  funext m
  have htarget : (MountTable.entry? m.line).map MountEntry.target = m.readTarget? := by
    rw [entry_target_eq, unescape_fields_line, readTarget?]
  rw [← htarget, Function.comp_apply]
  cases MountTable.entry? m.line <;> rfl

/-- **A mount without stray blanks is read as it is.** -/
theorem readTarget?_of_isPlain {m : Mount} (h : m.IsPlain) : m.readTarget? = some m.target := by
  have hplain : ∀ c ∈ m.source.toList ++ m.target.toList, isStray c = false :=
    fun c hc => Bool.eq_false_of_not_eq_true (List.any_eq_false.mp h c hc)
  have hsource : parts m.source.toList = [m.source.toList] :=
    parts_of_not_stray (fun c hc => hplain c (List.mem_append_left _ hc))
      fun heq => m.source_ne (String.toList_eq_nil_iff.mp heq)
  have htarget : parts m.target.toList = [m.target.toList] :=
    parts_of_not_stray (fun c hc => hplain c (List.mem_append_right _ hc))
      fun heq => m.target_ne (String.toList_eq_nil_iff.mp heq)
  rw [readTarget?, words, hsource, htarget]
  rw [if_pos (by simp [rest])]
  exact congrArg some (String.ofList_toList ..)

/-- Among mounts without stray blanks a target is read when one of them has it. -/
theorem any_readTarget?_of_isPlain {ms : List Mount} (h : ∀ m ∈ ms, m.IsPlain) (target : String) :
    (ms.any fun m => m.readTarget?.any (Path.same · target)) =
      ms.any fun m => Path.same m.target target := by
  induction ms with
  | nil => rfl
  | cons m ms ih =>
      obtain ⟨hm, hms⟩ := List.forall_mem_cons.mp h
      rw [List.any_cons, List.any_cons, readTarget?_of_isPlain hm, ih hms]
      rfl

end Mount

end ConfigDrive.Drive
