/-
# ConfigDrive.Proofs.Run.Queries — the command lines of a run, and what their ends mean.

Here is, word for word, what the probe utility and the mount utility are called with, and which exit code
and which output is which answer.  A label is present if the probe utility exits with 0 and absent if it
exits with 2; the device is the first line with something on it; the type is what the first line says.
Any other end is an error, and so is a utility that is not found or not started (`QueryFails`).

`LabelAsked`, `DeviceAsked` and `TypeAsked` relate a query to the programs it starts and to its answer.
There always is such an answer, and it is the reply that the configured utilities give
(`LabelAsked.reply_eq`, `labelAsked_reply` and their likes).
-/
import ConfigDrive.Proofs.Run.Starts
import ConfigDrive.Proofs.Text.Trimming

namespace ConfigDrive

open ConfigDrive.Drive (FilesystemType Label)

theorem WaitStatus.code?_eq_some_iff {s : WaitStatus} {code : Nat} :
    s.code? = some code ↔ s = .exited code := by
  cases s <;> simp [code?]

namespace Run

open Host
open ConfigDrive.Utilities (ofConfig)

/-! ## Command lines -/

/-- The arguments that ask whether there is a drive with a label. -/
def labelQuery : Label → List String
  | .lower => ["-t", "LABEL=config-2"]
  | .upper => ["-t", "LABEL=CONFIG-2"]

/-- The arguments that ask for the device with a label. -/
def deviceQuery : Label → List String
  | .lower => ["-L", "config-2"]
  | .upper => ["-L", "CONFIG-2"]

/-- The arguments that ask for the type of the filesystem with a label. -/
def typeQuery : Label → List String
  | .lower => ["-t", "LABEL=config-2", "-s", "TYPE", "-o", "value"]
  | .upper => ["-t", "LABEL=CONFIG-2", "-s", "TYPE", "-o", "value"]

/-- The arguments that mount a device with a filesystem of some type on a target. -/
def mountCommand (device target : String) : FilesystemType → List String
  | .vfat => ["-t", "vfat", "-o", "umask=0077", device, target]
  | .iso9660 => ["-t", "iso9660", "-o", "ro,mode=0700", device, target]
  | .other _ => ["-o", "rw,mode=0700", device, target]

theorem labelArgs_eq (l : Label) : Blkid.labelArgs l = labelQuery l := by
  cases l <;> rfl

theorem deviceArgs_eq (l : Label) : Blkid.deviceArgs l = deviceQuery l := by
  cases l <;> rfl

theorem typeArgs_eq (l : Label) : Blkid.typeArgs l = typeQuery l := by
  cases l <;> rfl

theorem mountArgs_eq (device target : String) (fsType : FilesystemType) :
    fsType.mountOptions.args ++ [device, target] = mountCommand device target fsType := by
  cases fsType <;> rfl

/-! ## What an output says -/

/-- The output names a device: it is the first line with something on it, without the blanks around. -/
def Names (output : List UInt8) (device : String) : Prop :=
  ∃ before line after, Text.lines (Text.Utf8.decodeLossy output) = before ++ line :: after ∧
    (∀ l ∈ before, Text.trim l = []) ∧ Text.trim line = device.toList ∧ device ≠ ""

/-- The output has no line with something on it. -/
def NamesNothing (output : List UInt8) : Prop :=
  ∀ line ∈ Text.lines (Text.Utf8.decodeLossy output), Text.trim line = []

/-- The first line of an output, which may be missing. -/
def firstLine (output : List UInt8) : String :=
  String.ofList ((Text.lines (Text.Utf8.decodeLossy output)).head?.getD [])

theorem firstText?_of_names {output : List UInt8} {device : String} (h : Names output device) :
    Blkid.firstText? output = some device := by
  obtain ⟨before, line, after, hlines, hbefore, hline, hne⟩ := h
  have hnone : (before.map Text.trim).find? (!·.isEmpty) = none := by
    rw [List.find?_eq_none]
    intro d hd
    obtain ⟨l, hl, rfl⟩ := List.mem_map.mp hd
    rw [hbefore l hl]
    decide
  have hsome : device.toList.isEmpty = false :=
    List.isEmpty_eq_false_iff.mpr fun hnil => hne (String.toList_eq_nil_iff.mp hnil)
  rw [Blkid.firstText?, hlines, List.map_append, List.map_cons, List.find?_append, hnone,
    List.find?_cons, hline, hsome]
  exact congrArg some String.ofList_toList

theorem firstText?_of_namesNothing {output : List UInt8} (h : NamesNothing output) :
    Blkid.firstText? output = none := by
  rw [Blkid.firstText?, Option.map_eq_none_iff, List.find?_eq_none]
  intro d hd
  obtain ⟨l, hl, rfl⟩ := List.mem_map.mp hd
  rw [h l hl]
  decide

/-- Every output names a device or nothing. -/
theorem names_or_namesNothing (output : List UInt8) :
    (∃ device, Names output device) ∨ NamesNothing output := by
  cases hfind : (Text.lines (Text.Utf8.decodeLossy output)).find? fun l => !(Text.trim l).isEmpty with
  | some line =>
      obtain ⟨hline, before, after, hlines, hbefore⟩ := List.find?_eq_some_iff_append.mp hfind
      refine .inl ⟨String.ofList (Text.trim line), before, line, after, hlines, fun l hl => ?_,
        String.toList_ofList.symm, fun hempty => ?_⟩
      · simpa using hbefore l hl
      · have hnil := congrArg String.toList hempty
        rw [String.toList_ofList] at hnil
        rw [hnil] at hline
        cases hline
  | none =>
      refine .inr fun line hline => ?_
      simpa using List.find?_eq_none.mp hfind line hline

/-! ## Queries -/

section

variable (c : Config) (t : FileTree)

/-- The start of the probe utility. -/
def query (args : List String) : Attempt :=
  attempt t c.allowList false c.blkid args

/-- The probe utility is started and exits with this code. -/
def Exited (args : List String) (code : Nat) (s : Started) : Prop :=
  query c t args = .ran s ∧ s.image.completion.status = .exited code

variable (l : Label)

/-- A query about a label fails: the probe utility is not found, is not started, or ends otherwise than
with one of some exit codes. -/
inductive QueryFails (args : List String) (codes : List Nat) : List Started → RunError → Prop
  | notFound (h : query c t args = .unresolved) :
      QueryFails args codes [] (.programNotFound c.blkid c.allowList)
  | notStarted {e : SystemError} (h : query c t args = .refused e) :
      QueryFails args codes [] (.probe l.text (.notStarted e))
  | unexpected {s : Started} (h : query c t args = .ran s)
      (hend : ∀ code ∈ codes, s.image.completion.status ≠ .exited code) :
      QueryFails args codes [s] (.probe l.text (.badStatus args s.image.completion.status.code?))

/-- How it is found out whether there is a drive with a label. -/
inductive LabelAsked : List Started → Except RunError Bool → Prop
  | present {s : Started} (h : Exited c t (labelQuery l) 0 s) : LabelAsked [s] (.ok true)
  | absent {s : Started} (h : Exited c t (labelQuery l) 2 s) : LabelAsked [s] (.ok false)
  | fails {s : List Started} {e : RunError} (h : QueryFails c t l (labelQuery l) [0, 2] s e) :
      LabelAsked s (.error e)

/-- How the device with a label is found out. -/
inductive DeviceAsked : List Started → Except RunError String → Prop
  | named {s : Started} {device : String} (h : Exited c t (deviceQuery l) 0 s)
      (hd : Names s.image.completion.stdout device) : DeviceAsked [s] (.ok device)
  | unnamed {s : Started} (h : Exited c t (deviceQuery l) 0 s)
      (hd : NamesNothing s.image.completion.stdout) :
      DeviceAsked [s] (.error (.probe l.text .noDevice))
  | fails {s : List Started} {e : RunError} (h : QueryFails c t l (deviceQuery l) [0] s e) :
      DeviceAsked s (.error e)

/-- How the type of the filesystem with a label is found out. -/
inductive TypeAsked : List Started → Except RunError FilesystemType → Prop
  | typed {s : Started} (h : Exited c t (typeQuery l) 0 s) :
      TypeAsked [s] (.ok (.ofText (firstLine s.image.completion.stdout)))
  | fails {s : List Started} {e : RunError} (h : QueryFails c t l (typeQuery l) [0] s e) :
      TypeAsked s (.error e)

/-- The start of the mount utility for a device. -/
def mounting (device : String) (fsType : FilesystemType) : Attempt :=
  attempt t c.allowList false c.mount (mountCommand device c.mountPoint fsType)

end

/-! ## The replies of the configured utilities -/

section

variable {c : Config} {t : FileTree} {l : Label} {args : List String} {codes : List Nat}

/-- A query fails, or the utility exits with one of the codes. -/
theorem queryFails_or_exited (c : Config) (t : FileTree) (l : Label) (args : List String)
    (codes : List Nat) :
    (∃ s e, QueryFails c t l args codes s e) ∨ ∃ code ∈ codes, ∃ s, Exited c t args code s := by
  cases hquery : query c t args with
  | unresolved => exact .inl ⟨_, _, .notFound hquery⟩
  | refused e => exact .inl ⟨_, _, .notStarted hquery⟩
  | ran s =>
      by_cases hend : ∃ code ∈ codes, s.image.completion.status = .exited code
      · obtain ⟨code, hcode, hstatus⟩ := hend
        exact .inr ⟨code, hcode, s, hquery, hstatus⟩
      · exact .inl ⟨_, _, .unexpected hquery fun code hcode hstatus => hend ⟨code, hcode, hstatus⟩⟩

theorem Exited.probed_eq {code : Nat} {s : Started} (h : Exited c t args code s) (l : Label) :
    (ofConfig c).probed t l args = ⟨[s], .ok s.image.completion⟩ := by
  have hran : attempt t (ofConfig c).searchPath false (ofConfig c).blkid args = .ran s := h.1
  rw [Utilities.probed, hran]

/-- What is read of a query that fails, if every other end than with one of the codes is an error. -/
theorem QueryFails.read_eq {α : Type} {s : List Started} {e : RunError}
    (h : QueryFails c t l args codes s e) {f : Completion → Except RunError α}
    (hf : ∀ completion : Completion, (∀ code ∈ codes, completion.status ≠ .exited code) →
      f completion = .error (Blkid.badStatus l args completion)) :
    ((ofConfig c).probed t l args).read f = ⟨s, .error e⟩ := by
  have hquery : attempt t (ofConfig c).searchPath false (ofConfig c).blkid args = query c t args := rfl
  rw [Utilities.probed, hquery]
  cases h with
  | notFound h => rw [h]; rfl
  | notStarted h => rw [h]; rfl
  | unexpected h hend =>
      rw [h, Reply.read]
      exact congrArg (Reply.mk _) (hf _ hend)

theorem LabelAsked.reply_eq {s : List Started} {r : Except RunError Bool}
    (h : LabelAsked c t l s r) : (ofConfig c).labelReply t l = ⟨s, r⟩ := by
  rw [Utilities.labelReply, labelArgs_eq]
  cases h with
  | present h =>
      rw [h.probed_eq, Reply.read, Except.bind, Blkid.labelAnswer, h.2]
      rfl
  | absent h =>
      rw [h.probed_eq, Reply.read, Except.bind, Blkid.labelAnswer, h.2]
      rfl
  | fails h =>
      refine h.read_eq fun completion hend => ?_
      have hzero := mt WaitStatus.code?_eq_some_iff.mp (hend 0 (by simp))
      have htwo := mt WaitStatus.code?_eq_some_iff.mp (hend 2 (by simp))
      rw [Blkid.labelAnswer, if_neg hzero, if_neg htwo, labelArgs_eq]

theorem DeviceAsked.reply_eq {s : List Started} {r : Except RunError String}
    (h : DeviceAsked c t l s r) : (ofConfig c).deviceReply t l = ⟨s, r⟩ := by
  rw [Utilities.deviceReply, deviceArgs_eq]
  cases h with
  | named h hd =>
      rw [h.probed_eq, Reply.read, Except.bind, Blkid.deviceAnswer, h.2, firstText?_of_names hd]
      rfl
  | unnamed h hd =>
      rw [h.probed_eq, Reply.read, Except.bind, Blkid.deviceAnswer, h.2,
        firstText?_of_namesNothing hd]
      rfl
  | fails h =>
      refine h.read_eq fun completion hend => ?_
      have hzero := mt WaitStatus.code?_eq_some_iff.mp (hend 0 (by simp))
      rw [Blkid.deviceAnswer, if_neg hzero, deviceArgs_eq]

theorem TypeAsked.reply_eq {s : List Started} {r : Except RunError FilesystemType}
    (h : TypeAsked c t l s r) : (ofConfig c).typeReply t l = ⟨s, r⟩ := by
  rw [Utilities.typeReply, typeArgs_eq]
  cases h with
  | typed h =>
      rw [h.probed_eq, Reply.read, Except.bind, Blkid.typeAnswer, h.2]
      rfl
  | fails h =>
      refine h.read_eq fun completion hend => ?_
      have hzero := mt WaitStatus.code?_eq_some_iff.mp (hend 0 (by simp))
      rw [Blkid.typeAnswer, if_neg hzero, typeArgs_eq]

theorem mounting_eq (c : Config) (t : FileTree) (device : String) (fsType : FilesystemType) :
    (ofConfig c).mountAttempt t device c.mountPoint fsType.mountOptions =
      mounting c t device fsType := by
  rw [Utilities.mountAttempt, mountArgs_eq]
  rfl

theorem exists_labelAsked (c : Config) (t : FileTree) (l : Label) :
    ∃ s r, LabelAsked c t l s r := by
  rcases queryFails_or_exited c t l (labelQuery l) [0, 2] with ⟨s, e, h⟩ | ⟨code, hcode, s, h⟩
  · exact ⟨_, _, .fails h⟩
  · simp only [List.mem_cons, List.not_mem_nil, or_false] at hcode
    rcases hcode with rfl | rfl
    · exact ⟨_, _, .present h⟩
    · exact ⟨_, _, .absent h⟩

theorem exists_deviceAsked (c : Config) (t : FileTree) (l : Label) :
    ∃ s r, DeviceAsked c t l s r := by
  rcases queryFails_or_exited c t l (deviceQuery l) [0] with ⟨s, e, h⟩ | ⟨code, hcode, s, h⟩
  · exact ⟨_, _, .fails h⟩
  · obtain rfl := List.mem_singleton.mp hcode
    rcases names_or_namesNothing s.image.completion.stdout with ⟨device, hd⟩ | hd
    · exact ⟨_, _, .named h hd⟩
    · exact ⟨_, _, .unnamed h hd⟩

theorem exists_typeAsked (c : Config) (t : FileTree) (l : Label) :
    ∃ s r, TypeAsked c t l s r := by
  rcases queryFails_or_exited c t l (typeQuery l) [0] with ⟨s, e, h⟩ | ⟨code, hcode, s, h⟩
  · exact ⟨_, _, .fails h⟩
  · obtain rfl := List.mem_singleton.mp hcode
    exact ⟨_, _, .typed h⟩

/-- The reply of the configured utilities is the answer there is. -/
theorem labelAsked_reply (c : Config) (t : FileTree) (l : Label) :
    LabelAsked c t l ((ofConfig c).labelReply t l).started ((ofConfig c).labelReply t l).answer := by
  obtain ⟨s, r, h⟩ := exists_labelAsked c t l
  rw [h.reply_eq]
  exact h

theorem deviceAsked_reply (c : Config) (t : FileTree) (l : Label) :
    DeviceAsked c t l ((ofConfig c).deviceReply t l).started
      ((ofConfig c).deviceReply t l).answer := by
  obtain ⟨s, r, h⟩ := exists_deviceAsked c t l
  rw [h.reply_eq]
  exact h

theorem typeAsked_reply (c : Config) (t : FileTree) (l : Label) :
    TypeAsked c t l ((ofConfig c).typeReply t l).started ((ofConfig c).typeReply t l).answer := by
  obtain ⟨s, r, h⟩ := exists_typeAsked c t l
  rw [h.reply_eq]
  exact h

end

end Run

end ConfigDrive
