/-
# ConfigDrive.Proofs.Run.Framing — what stands around an answer of the probe utility does not matter.

The probe utility writes bytes, and what is wanted of them is one line.  An output frames a text when there
are blanks before it, blanks after it on its line, and then nothing or a line feed and any bytes, even
such as are no UTF-8 (`Frame`).  A device is the framed text, behind as many blank lines as there may be
(`deviceAnswer_around`), and only an output of blanks names none (`firstText?_eq_none_iff`).  A type is
what the first line says (`typeAnswer_around`).

A type is read without the blanks around its name, so its name reads as the same type again
(`ofText_name`).  That is the name that `detect` reports (`exists_typeReply_of_detect`).
-/
import ConfigDrive.Proofs.Run.Starts
import ConfigDrive.Proofs.Text.Trimming
import ConfigDrive.Proofs.Text.Utf8

namespace ConfigDrive

open Host
open ConfigDrive.Drive (FilesystemType Label Location Report)
open ConfigDrive.Text (IsTrimmedLine isBlank)

/-! ## Names of types -/

namespace Drive.FilesystemType

theorem ofText_ofList (s : List Char) :
    ofText (String.ofList s) = ofText (String.ofList (Text.trim s)) := by
  have htrimmed : ∀ t : List Char, Text.trimmed (String.ofList t) = String.ofList (Text.trim t) :=
    fun t => congrArg (fun u => String.ofList (Text.trim u)) String.toList_ofList
  rw [ofText, ofText, htrimmed, htrimmed, Text.trim_trim]

/-- **The name of a type that was read reads as the same type.** -/
theorem ofText_name (s : String) : ofText (ofText s).name = ofText s := by
  have hname : (ofText s).name = Text.trimmed s := by
    rw [ofText]
    split_ifs with hvfat hiso
    · exact hvfat.symm
    · exact hiso.symm
    · rfl
  have hs := ofText_ofList s.toList
  rw [String.ofList_toList] at hs
  rw [hname, hs]
  rfl

end Drive.FilesystemType

/-! ## Frames -/

/-- What a utility may write around a text: blanks before it, blanks after it on its line, and then nothing
or a line feed and any bytes. -/
structure Frame where
  lead : List Char
  padding : List Char
  rest : List UInt8
  isBlank_lead : ∀ c ∈ lead, isBlank c = true
  isBlank_padding : ∀ c ∈ padding, isBlank c = true
  newline_not_mem : '\n' ∉ padding
  rest_eq : rest = [] ∨ ∃ bytes, rest = 0x0A :: bytes

namespace Frame

/-- The output with a text in the frame. -/
def around (f : Frame) (d : String) : List UInt8 :=
  Text.Utf8.encode (f.lead ++ d.toList ++ f.padding) ++ f.rest

/-- The text that is read: the line of the framed text ends, whatever the bytes behind it are. -/
theorem exists_decodeLossy_around (f : Frame) (d : String) :
    ∃ after, Text.EndsLine after ∧
      Text.Utf8.decodeLossy (f.around d) = f.lead ++ d.toList ++ f.padding ++ after := by
  refine ⟨Text.Utf8.decodeLossy f.rest, ?_, Text.Utf8.decodeLossy_encode_append _ _⟩
  rcases f.rest_eq with h | ⟨bytes, h⟩
  · exact .inl (by rw [h]; rfl)
  · exact .inr ⟨Text.Utf8.decodeLossy bytes, by rw [h]; rfl⟩

end Frame

/-! ## Reading an output -/

namespace Blkid

variable {f : Frame} {d : String} {output : List UInt8} {l : Label} {c : Completion}

theorem firstText?_eq (output : List UInt8) :
    firstText? output = (Text.firstText? (Text.Utf8.decodeLossy output)).map String.ofList :=
  congrArg (Option.map String.ofList) (Text.find?_trim_lines _)

/-- **Only an output of blanks has no text.** -/
theorem firstText?_eq_none_iff :
    firstText? output = none ↔ ∀ ch ∈ Text.Utf8.decodeLossy output, isBlank ch = true := by
  rw [firstText?_eq, Option.map_eq_none_iff, Text.firstText?, ← Text.trimLeft_eq_nil_iff]
  split
  · next h => exact ⟨fun _ => h, fun _ => rfl⟩
  · next h => exact ⟨fun hsome => absurd hsome (Option.some_ne_none _), fun hnil => absurd hnil h⟩

/-- **The first text of an output is the framed one**, behind any blank lines. -/
theorem firstText?_around (f : Frame) (hd : IsTrimmedLine d.toList) :
    firstText? (f.around d) = some d := by
  obtain ⟨after, hend, hdecoded⟩ := f.exists_decodeLossy_around d
  have htrim : Text.trim (d.toList ++ f.padding) = d.toList :=
    hd.trim_eq (List.forall_mem_nil _) f.isBlank_padding
  have hline : '\n' ∉ d.toList ++ f.padding := by
    rw [List.mem_append, not_or]
    exact ⟨hd.newline_not_mem, f.newline_not_mem⟩
  rw [firstText?_eq, hdecoded, List.append_assoc, List.append_assoc,
    Text.firstText?_of_blank_append f.isBlank_lead, ← List.append_assoc,
    Text.firstText?_line (by rw [htrim]; exact hd.ne_nil) hline hend, htrim]
  exact congrArg some String.ofList_toList

theorem deviceAnswer_around (hc : c.status = .exited 0) (hd : IsTrimmedLine d.toList)
    (hout : c.stdout = f.around d) : deviceAnswer l c = .ok d := by
  rw [deviceAnswer, hc, hout, firstText?_around f hd]
  rfl

theorem exists_deviceAnswer_error_iff (hc : c.status = .exited 0) :
    (∃ e, deviceAnswer l c = .error e) ↔
      ∀ ch ∈ Text.Utf8.decodeLossy c.stdout, isBlank ch = true := by
  rw [← firstText?_eq_none_iff, deviceAnswer, hc]
  cases firstText? c.stdout with
  | none => exact ⟨fun _ => rfl, fun _ => ⟨_, rfl⟩⟩
  | some device => exact ⟨nofun, nofun⟩

theorem typeAnswer_of_exited (hc : c.status = .exited 0) :
    typeAnswer l c = .ok (.ofText (String.ofList
      ((Text.lines (Text.Utf8.decodeLossy c.stdout)).head?.getD []))) := by
  rw [typeAnswer, hc]
  rfl

/-- **The type is that of the framed text**, on the first line. -/
theorem typeAnswer_around (hc : c.status = .exited 0) (hd : IsTrimmedLine d.toList)
    (hlead : '\n' ∉ f.lead) (hout : c.stdout = f.around d) :
    typeAnswer l c = .ok (FilesystemType.ofText d) := by
  obtain ⟨after, hend, hdecoded⟩ := f.exists_decodeLossy_around d
  have hline : '\n' ∉ f.lead ++ d.toList ++ f.padding := by
    simp [hlead, hd.newline_not_mem, f.newline_not_mem]
  have htrim := (Text.trim_head_lines hline hend).trans (hd.trim_eq f.isBlank_lead f.isBlank_padding)
  rw [typeAnswer_of_exited hc, hout, hdecoded, FilesystemType.ofText_ofList, htrim,
    String.ofList_toList]

/-- A type that was read reads as itself by its name. -/
theorem ofText_name_of_typeAnswer {t : FilesystemType} (h : typeAnswer l c = .ok t) :
    FilesystemType.ofText t.name = t := by
  rw [typeAnswer] at h
  split at h
  · rw [← Except.ok.inj h]
    exact FilesystemType.ofText_name _
  · cases h

end Blkid

/-! ## Asking on a machine -/

namespace Utilities

variable {u : Utilities} {m : Machine} {l : Label} {program : Started}

theorem answer_probed {args : List String} {t : FileTree}
    (hran : attempt t u.searchPath false u.blkid args = .ran program) :
    u.probed t l args = ⟨[program], .ok program.image.completion⟩ := by
  rw [probed, hran]

theorem perform_deviceFor
    (hran : attempt m.tree u.searchPath false u.blkid (Blkid.deviceArgs l) = .ran program) :
    (m.perform (u.perform (Run.deviceFor l))).1 =
      .ok (Blkid.deviceAnswer l program.image.completion) := by
  rw [(m.perform_eq_course _).1, u.course_deviceFor, deviceReply, answer_probed hran]
  rfl

theorem perform_filesystemType (u : Utilities) (m : Machine) (l : Label) :
    (m.perform (u.perform (Run.filesystemType l))).1 = .ok (u.typeReply m.tree l).answer := by
  rw [(m.perform_eq_course _).1, u.course_filesystemType]

theorem ofText_name_of_typeReply {t : FileTree} {fsType : FilesystemType}
    (h : (u.typeReply t l).answer = .ok fsType) : FilesystemType.ofText fsType.name = fsType := by
  rw [typeReply, Reply.read] at h
  cases hprobed : (u.probed t l (Blkid.typeArgs l)).answer with
  | error e =>
      rw [hprobed] at h
      cases h
  | ok c =>
      rw [hprobed] at h
      exact Blkid.ofText_name_of_typeAnswer h

variable {α β : Type} {x : Run.RunM α} {g : α → Run.RunM β} {t : FileTree}

/-- A run that has a result had one in its first part. -/
theorem exists_of_course_perform_bind {b : β}
    (h : (course (u.perform (x >>= g)) t).result = .ok (.ok b)) :
    ∃ a, (course (u.perform x) t).result = .ok (.ok a) ∧
      (course (u.perform (g a)) (course (u.perform x) t).tree).result = .ok (.ok b) := by
  rw [perform_bind, course_bind] at h
  cases hx : (course (u.perform x) t).result with
  | error completion =>
      rw [hx] at h
      cases h
  | ok r =>
      rw [hx] at h
      cases r with
      | error e => cases h
      | ok a => exact ⟨a, rfl, h⟩

/-- The type of a drive that is described was answered. -/
theorem typeReply_of_describe {location : Location}
    (h : (course (u.perform (Run.describe l)) t).result = .ok (.ok location)) :
    (u.typeReply t l).answer = .ok location.fsType := by
  rw [Run.describe] at h
  obtain ⟨device, -, h⟩ := exists_of_course_perform_bind h
  rw [u.course_deviceFor] at h
  obtain ⟨fsType, htype, h⟩ := exists_of_course_perform_bind h
  rw [u.course_filesystemType] at htype
  cases h
  exact Except.ok.inj htype

/-- The type of a drive that is reported was answered. -/
theorem exists_typeReply_of_detect {c : Config} {r : Report} {location : Location}
    (h : (course (u.perform (Run.detect c)) t).result = .ok (.ok r))
    (hlocation : r.location = some location) :
    ∃ l t', (u.typeReply t' l).answer = .ok location.fsType := by
  rw [Run.detect] at h
  obtain ⟨found, hprobe, hr⟩ := exists_of_course_perform_bind h
  cases hr
  obtain rfl := hlocation
  rw [Run.probe] at hprobe
  obtain ⟨label?, -, hprobe⟩ := exists_of_course_perform_bind hprobe
  cases label? with
  | none => cases hprobe
  | some l =>
      obtain ⟨described, hdescribed, hsome⟩ := exists_of_course_perform_bind hprobe
      cases hsome
      exact ⟨l, _, typeReply_of_describe hdescribed⟩

end Utilities

/-! ## The answers on a machine -/

/-- **What stands around an answer of the probe utility does not matter.**  Let `device` and `fsType` be
what is answered about a label.

If the utility exits with 0, the device is the text that its output frames, behind any number of blank
lines, and there is an error exactly if the output, as it is read, holds nothing but blanks.  The type is
that of the text that the output frames on its first line.  Whatever was printed, the name of the type
reads as that type again, and the drive that `detect` reports is reported with such a name. -/
theorem output_frame_ignored (m : Machine) (u : Utilities) (l : Label) :
    let device := (m.perform (u.perform (Run.deviceFor l))).1
    let fsType := (m.perform (u.perform (Run.filesystemType l))).1
    (∀ program : Started,
      attempt m.tree u.searchPath false u.blkid (Blkid.deviceArgs l) = .ran program →
      program.image.completion.status = .exited 0 →
        (∀ (f : Frame) (d : String), IsTrimmedLine d.toList →
          program.image.completion.stdout = f.around d → device = .ok (.ok d)) ∧
        ((∃ e, device = .ok (.error e)) ↔
          ∀ c ∈ Text.Utf8.decodeLossy program.image.completion.stdout, isBlank c = true)) ∧
      (∀ program : Started,
        attempt m.tree u.searchPath false u.blkid (Blkid.typeArgs l) = .ran program →
        program.image.completion.status = .exited 0 →
          ∀ (f : Frame) (d : String), IsTrimmedLine d.toList → '\n' ∉ f.lead →
            program.image.completion.stdout = f.around d →
              fsType = .ok (.ok (FilesystemType.ofText d))) ∧
      (∀ t, fsType = .ok (.ok t) → FilesystemType.ofText t.name = t) ∧
      ∀ (c : Config) (r : Report) (location : Location),
        (m.perform (u.perform (Run.detect c))).1 = .ok (.ok r) → r.location = some location →
          r.fields.lookup "fs_type" = some (Text.Json.quoted location.fsType.name) ∧
            FilesystemType.ofText location.fsType.name = location.fsType := by
  intro device fsType
  refine ⟨?device, ?fsType, ?name, ?report⟩
  case device =>
    intro program hran hstatus
    have hdevice : device = _ := Utilities.perform_deviceFor hran
    rw [hdevice]
    refine ⟨fun f d hd hout => ?_, ?_⟩
    · rw [Blkid.deviceAnswer_around hstatus hd hout]
    · rw [← Blkid.exists_deviceAnswer_error_iff (l := l) hstatus]
      constructor
      · rintro ⟨e, he⟩
        exact ⟨e, Except.ok.inj he⟩
      · rintro ⟨e, he⟩
        exact ⟨e, congrArg Except.ok he⟩
  case fsType =>
    intro program hran hstatus f d hd hlead hout
    have hanswer : fsType = _ := u.perform_filesystemType m l
    rw [hanswer, Utilities.typeReply, Utilities.answer_probed hran]
    exact congrArg Except.ok (Blkid.typeAnswer_around hstatus hd hlead hout)
  case name =>
    intro t ht
    have hanswer : fsType = _ := u.perform_filesystemType m l
    exact Utilities.ofText_name_of_typeReply (Except.ok.inj (hanswer.symm.trans ht))
  case report =>
    intro c r location hr hlocation
    rw [(m.perform_eq_course _).1] at hr
    obtain ⟨l', t', htype⟩ := Utilities.exists_typeReply_of_detect hr hlocation
    refine ⟨?_, Utilities.ofText_name_of_typeReply htype⟩
    obtain ⟨_, mountPoint⟩ := r
    obtain rfl := hlocation
    rfl

/-! ## A drive behind blank lines -/

/-- Blank lines and padding, a no-break space and a carriage return, and a byte that begins no
character. -/
def strayFrame : Frame where
  lead := "\n \r\n\t".toList
  padding := "\u00a0\r".toList
  rest := [0x0A, 0xFF]
  isBlank_lead := List.all_eq_true.1 (by decide)
  isBlank_padding := List.all_eq_true.1 (by decide)
  newline_not_mem := by decide
  rest_eq := .inr ⟨[0xFF], rfl⟩

/-- Padding on both sides, and nothing behind it. -/
def narrowFrame : Frame where
  lead := " ".toList
  padding := "\t".toList
  rest := []
  isBlank_lead := List.all_eq_true.1 (by decide)
  isBlank_padding := List.all_eq_true.1 (by decide)
  newline_not_mem := by decide
  rest_eq := .inl rfl

/-- A machine with a probe utility that frames what it prints. -/
def framingMachine : Machine where
  tree :=
    { root := [("bin", .directory [("blkid", .program 0o755
        ⟨[("-L config-2", { Shell.quiet 0 with stdout := strayFrame.around "/dev/sr0" }),
          ("-t LABEL=config-2 -s TYPE -o value",
            { Shell.quiet 0 with stdout := narrowFrame.around "iso9660" })], Shell.quiet 0⟩)])]
      workingDirectory := [] }

/-- The settings for that machine. -/
def framingSettings : Config :=
  { searchPath := ["bin"] }

/-- What comes of a part of a run on that machine. -/
def framed {α : Type} (x : Run.RunM α) : Except Completion (Except RunError α) :=
  (framingMachine.perform ((Utilities.ofConfig framingSettings).perform x)).1

/-- What the probe utility of that machine leaves when it is asked like this. -/
def framedCompletions (args : List String) : List Completion :=
  (attempt framingMachine.tree ⟨["bin"]⟩ false "blkid" args).started.map fun s => s.image.completion

/-- The device behind blank lines and the type between blanks are read, and `detect` reports them. -/
theorem framed_answers_read :
    framedCompletions (Blkid.deviceArgs .lower) =
        [{ Shell.quiet 0 with stdout := strayFrame.around "/dev/sr0" }] ∧
      framedCompletions (Blkid.typeArgs .lower) =
        [{ Shell.quiet 0 with stdout := narrowFrame.around "iso9660" }] ∧
      framed (Run.deviceFor .lower) = .ok (.ok "/dev/sr0") ∧
      framed (Run.filesystemType .lower) = .ok (.ok .iso9660) ∧
      framed (Run.detect framingSettings) =
        .ok (.ok ⟨some ⟨.lower, "/dev/sr0", .iso9660⟩, "/mnt/config"⟩) ∧
      FilesystemType.ofText FilesystemType.iso9660.name = .iso9660 := by
  have hdevice : framedCompletions (Blkid.deviceArgs .lower) =
      [{ Shell.quiet 0 with stdout := strayFrame.around "/dev/sr0" }] := by
    decide +kernel
  have htype : framedCompletions (Blkid.typeArgs .lower) =
      [{ Shell.quiet 0 with stdout := narrowFrame.around "iso9660" }] := by
    decide +kernel
  have hdetect : framed (Run.detect framingSettings) =
      .ok (.ok ⟨some ⟨.lower, "/dev/sr0", .iso9660⟩, "/mnt/config"⟩) := by
    decide +kernel
  have hframes := output_frame_ignored framingMachine (Utilities.ofConfig framingSettings) .lower
  have hpath : IsTrimmedLine "/dev/sr0".toList :=
    ⟨by decide, by decide, by rintro c ⟨⟩; decide, by rintro c ⟨⟩; decide⟩
  have hname : IsTrimmedLine "iso9660".toList :=
    ⟨by decide, by decide, by rintro c ⟨⟩; decide, by rintro c ⟨⟩; decide⟩
  obtain ⟨probe, hran, hprobe⟩ := Attempt.exists_ran hdevice
  obtain ⟨probe', hran', hprobe'⟩ := Attempt.exists_ran htype
  refine ⟨hdevice, htype, ?_, ?_, hdetect, ?_⟩
  · exact (hframes.1 probe hran (by rw [hprobe]; rfl)).1 strayFrame _ hpath (by rw [hprobe])
  · exact hframes.2.1 probe' hran' (by rw [hprobe']; rfl) narrowFrame _ hname (by decide)
      (by rw [hprobe'])
  · exact (hframes.2.2.2 framingSettings _ _ hdetect rfl).2

end ConfigDrive
