/-
# ConfigDrive.Proofs.Run.Detecting — looking for the drive is a rehearsal of the run.

`probe` and `locate` are two procedures for one search.  Here the answers of the probe are functions of the
label (`Probe`), and files, mounter and launcher are what they may be.  Then looking changes nothing, asks
the probe alone, and tells what follows from the probe's answers (`Tells`); `locate` differs from it in the
mount point that it makes before it asks for the drive, and so in the error of a mount point that cannot be
made (`probe_agrees_with_locate`).  The written report of `detect` says that a drive was found exactly if it
describes one.
-/
import ConfigDrive.FileTree.Walk
import ConfigDrive.Proofs.Run.Mounters

namespace ConfigDrive.Drive.Report

/-- A field of a report is present if it is not written as a gap. -/
def Shows (r : Report) (field : String) : Prop :=
  ∃ text, r.fields.lookup field = some text ∧ text ≠ "null"

theorem quoted_ne_null (s : String) : Text.Json.quoted s ≠ "null" := by
  intro h
  have hhead := congrArg (fun text : String => text.toList.head?) h
  simp [Text.Json.quoted] at hhead

/-- What the written report says of a drive, or of none. -/
structure Describes (r : Report) (location? : Option Location) : Prop where
  found_iff_shows : r.fields.lookup "found" = some "true" ↔
    Shows r "label" ∧ Shows r "device" ∧ Shows r "fs_type"
  found_iff_isSome : r.fields.lookup "found" = some "true" ↔ location?.isSome
  shown : ∀ location, location? = some location →
    r.fields.lookup "label" = some (Text.Json.quoted location.label.text) ∧
      r.fields.lookup "device" = some (Text.Json.quoted location.device) ∧
      r.fields.lookup "fs_type" = some (Text.Json.quoted location.fsType.name)

/-- **A report describes its drive.** -/
theorem describes_location (location? : Option Location) (mountPoint : String) :
    Describes ⟨location?, mountPoint⟩ location? := by
  cases location? with
  | none =>
      have hfound : (⟨none, mountPoint⟩ : Report).fields.lookup "found" = some "false" := rfl
      have hlabel : ¬ Shows ⟨none, mountPoint⟩ "label" := by
        rintro ⟨text, hlookup, htext⟩
        cases hlookup
        exact htext rfl
      refine ⟨⟨?_, fun h => absurd h.1 hlabel⟩, ⟨?_, nofun⟩, nofun⟩ <;>
      · intro h
        rw [hfound] at h
        exact absurd h (by decide)
  | some location =>
      refine ⟨⟨fun _ => ?_, fun _ => rfl⟩, ⟨fun _ => rfl, fun _ => rfl⟩, ?_⟩
      · exact ⟨⟨_, rfl, quoted_ne_null _⟩, ⟨_, rfl, quoted_ne_null _⟩,
          ⟨_, rfl, quoted_ne_null _⟩⟩
      · rintro _ ⟨⟩
        exact ⟨rfl, rfl, rfl⟩

end ConfigDrive.Drive.Report

namespace ConfigDrive.Run

open ConfigDrive.Drive (Detection FilesystemType Label Location MountOutcome Report)

/-! ## Probes -/

/-- A probe whose answers depend on nothing but the label. -/
structure Probe where
  hasLabel : Label → Except RunError Bool
  deviceFor : Label → Except RunError String
  filesystemType : Label → Except RunError FilesystemType

namespace Probe

variable (p : Probe)

/-- The first of these labels that is present. -/
def firstAmong : List Label → Except RunError (Option Label)
  | [] => .ok none
  | l :: ls => do
    if ← p.hasLabel l then return some l else firstAmong ls

/-- The first label that is present. -/
def firstLabel : Except RunError (Option Label) :=
  p.firstAmong Label.all

/-- The drive with a label. -/
def describe (l : Label) : Except RunError Location := do
  let device ← p.deviceFor l
  let fsType ← p.filesystemType l
  return ⟨l, device, fsType⟩

/-- The drive, if there is one. -/
def location : Except RunError (Option Location) := do
  match ← p.firstLabel with
  | some l => return some (← p.describe l)
  | none => return none

/-- A world with this probe, the files of a tree, and a launcher. -/
def surroundings {ε : Type} (launch : Invocation → ExceptT ε (StateM FileTree) (Except RunError Nat)) :
    Surroundings ε FileTree where
  hasLabel l := pure (p.hasLabel l)
  deviceFor l := pure (p.deviceFor l)
  filesystemType l := pure (p.filesystemType l)
  makeMountPoint path := ExceptT.mk fun t : FileTree =>
    (.ok (t.makeDirectories path).1, (t.makeDirectories path).2)
  launch := launch

end Probe

/-- The question is one for the probe. -/
def Question.isForProbe : Question → Bool
  | .hasLabel _ => true
  | .deviceFor _ => true
  | .filesystemType _ => true
  | _ => false

/-- The question asks whether a label is present. -/
def Question.isForLabel : Question → Bool
  | .hasLabel _ => true
  | _ => false

/-! ## Parts that only look -/

section

variable {ε ρ μ α β : Type} (b : Surroundings ε ρ) (m : Mounter μ)

/-- In every world this part of a run has the result `r`; it changes nothing and asks only such
questions. -/
def Tells (P : Question → Prop) (x : RunM α) (r : Except RunError α) : Prop :=
  ∀ w : World ρ μ, ∃ asked, (∀ q ∈ asked, P q) ∧
    b.perform m w x.run = (.ok r, { w with asked := w.asked ++ asked })

variable {b m} {P P' : Question → Prop} {x : RunM α} {f : α → RunM β}

theorem perform_bindE_ok {w w' : World ρ μ} {a : α} (h : b.perform m w x.run = (.ok (.ok a), w')) :
    b.perform m w (x >>= f).run = b.perform m w' (f a).run := by
  show b.perform m w (x.run >>= ExceptT.bindCont f) = _
  rw [b.perform_bind, h]
  rfl

theorem perform_bindE_error {w w' : World ρ μ} {e : RunError}
    (h : b.perform m w x.run = (.ok (.error e), w')) :
    b.perform m w (x >>= f).run = (.ok (.error e), w') := by
  show b.perform m w (x.run >>= ExceptT.bindCont f) = _
  rw [b.perform_bind, h]
  rfl

theorem Tells.pure (a : α) : Tells b m P (pure a) (.ok a) := by
  intro w
  refine ⟨[], by simp, ?_⟩
  rw [List.append_nil]
  rfl

/-- What tells a result and goes on tells what follows from it. -/
theorem Tells.bind {r : Except RunError α} {g : α → Except RunError β} (h : Tells b m P x r)
    (h' : ∀ a, r = .ok a → Tells b m P (f a) (g a)) : Tells b m P (x >>= f) (r >>= g) := by
  intro w
  obtain ⟨asked, hasked, hx⟩ := h w
  cases r with
  | error e => exact ⟨asked, hasked, perform_bindE_error hx⟩
  | ok a =>
      obtain ⟨asked', hasked', hf⟩ := h' a rfl { w with asked := w.asked ++ asked }
      refine ⟨asked ++ asked', ?_, ?_⟩
      · intro q hq
        exact (List.mem_append.mp hq).elim (hasked q) (hasked' q)
      · rw [perform_bindE_ok hx, hf, List.append_assoc]
        rfl

theorem Tells.mono {r : Except RunError α} (h : Tells b m P x r) (hP : ∀ q, P q → P' q) :
    Tells b m P' x r := by
  intro w
  obtain ⟨asked, hasked, hx⟩ := h w
  exact ⟨asked, fun q hq => hP q (hasked q hq), hx⟩

/-- Nobody is asked about a line of the log. -/
theorem Tells.say_bind {r : Except RunError α} (level : Log.Level) (message : String)
    (h : Tells b m P x r) : Tells b m P (say level message >>= fun _ => x) r :=
  h

/-- A single question tells its answer. -/
theorem Tells.question {q : Question} {r : Except RunError α} (hq : P q)
    (h : ∀ w : World ρ μ, b.perform m w x.run = (.ok r, { w with asked := w.asked ++ [q] })) :
    Tells b m P x r := by
  intro w
  refine ⟨[q], ?_, h w⟩
  intro q' hq'
  rwa [List.mem_singleton.mp hq']

end

/-! ## Looking for the drive -/

section

variable {ε μ : Type} (p : Probe)
  (launch : Invocation → ExceptT ε (StateM FileTree) (Except RunError Nat)) (m : Mounter μ)

theorem tells_hasLabel (l : Label) :
    Tells (p.surroundings launch) m (fun q => q.isForLabel) (hasLabel l) (p.hasLabel l) :=
  .question rfl fun _ => rfl

theorem tells_deviceFor (l : Label) :
    Tells (p.surroundings launch) m (fun q => q.isForProbe) (deviceFor l) (p.deviceFor l) :=
  .question rfl fun _ => rfl

theorem tells_filesystemType (l : Label) :
    Tells (p.surroundings launch) m (fun q => q.isForProbe) (filesystemType l)
      (p.filesystemType l) :=
  .question rfl fun _ => rfl

theorem tells_findAmong (ls : List Label) :
    Tells (p.surroundings launch) m (fun q => q.isForLabel) (findAmong ls) (p.firstAmong ls) := by
  induction ls with
  | nil => exact .say_bind _ _ (.pure none)
  | cons l ls ih =>
      rw [findAmong, Probe.firstAmong]
      refine .say_bind _ _ ((tells_hasLabel p launch m l).bind fun present _ => ?_)
      cases present with
      | true => exact .say_bind _ _ (.pure _)
      | false => exact ih

/-- **The search for a label** tells the first one that is present, and asks for labels only. -/
theorem tells_findLabel :
    Tells (p.surroundings launch) m (fun q => q.isForLabel) findLabel p.firstLabel :=
  tells_findAmong p launch m Label.all

theorem tells_describe (l : Label) :
    Tells (p.surroundings launch) m (fun q => q.isForProbe) (describe l) (p.describe l) := by
  rw [describe, Probe.describe]
  refine (tells_deviceFor p launch m l).bind fun device _ => ?_
  refine (tells_filesystemType p launch m l).bind fun fsType _ => ?_
  exact .say_bind _ _ (.pure _)

/-- **Looking for the drive** tells the drive that the probe's answers describe, and asks the probe
alone. -/
theorem tells_probe :
    Tells (p.surroundings launch) m (fun q => q.isForProbe) Run.probe p.location := by
  have hlabel : ∀ q : Question, q.isForLabel = true → q.isForProbe = true := by
    intro q hq
    cases q <;> first | rfl | cases hq
  rw [Run.probe, Probe.location]
  refine ((tells_findLabel p launch m).mono hlabel).bind fun l? _ => ?_
  cases l? with
  | none => exact .pure none
  | some l => exact (tells_describe p launch m l).bind fun location _ => .pure (some location)

theorem tells_detect (c : Config) :
    Tells (p.surroundings launch) m (fun q => q.isForProbe) (detect c)
      (do return ⟨← p.location, c.mountPoint⟩) := by
  rw [detect]
  exact (tells_probe p launch m).bind fun location? _ => .pure _

/-! ## Mounting it as well -/

/-- A mount always has an outcome, whatever the mounter does. -/
theorem exists_mount_outcome (mountPoint : String) (location : Location) (w : World FileTree μ) :
    ∃ outcome w', (p.surroundings launch).perform m w (mount mountPoint location) =
      (.ok outcome, w') := by
  let b := p.surroundings launch
  let options := location.fsType.mountOptions
  -- the request is answered, and what follows the answer is quiet
  obtain ⟨attempt, w₁, hattempt⟩ : ∃ attempt w₁, b.perform m w
      (attemptMount location.device mountPoint options) = (.ok attempt, w₁) :=
    ⟨_, _, b.perform_question m w (.attemptMount location.device mountPoint options)⟩
  obtain ⟨r, w₂, hr, -, -⟩ := quiet_afterAttempt (b := b) m mountPoint attempt w₁
  obtain ⟨outcome, w₃, houtcome, -, -⟩ := quiet_report (b := b) m mountPoint location r w₂
  have hdevice : b.perform m w (mountDevice location.device mountPoint options) = (.ok r, w₂) := by
    rw [mountDevice, b.perform_bind, hattempt]
    exact hr
  refine ⟨outcome, w₃, ?_⟩
  show b.perform m w (mount mountPoint location) = _
  rw [mount, b.perform_bind, hdevice]
  exact houtcome

/-- The mount point is made in the tree, or cannot be made. -/
theorem perform_makeMountPoint (mountPoint : String) (w : World FileTree μ) :
    (p.surroundings launch).perform m w (makeMountPoint mountPoint).run =
      (.ok ((w.rest.makeDirectories mountPoint).1.mapError (RunError.mountPoint mountPoint)),
        { w with
          rest := (w.rest.makeDirectories mountPoint).2
          asked := w.asked ++ [.makeMountPoint mountPoint] }) :=
  rfl

variable {t : FileTree} {s : μ} {mountPoint : String}

/-- Without a label to go on from, `locate` only looks. -/
theorem tells_locate (h : ∀ l, p.firstLabel ≠ .ok (some l)) :
    Tells (p.surroundings launch) m (fun q => q.isForLabel) (locate mountPoint)
      (do
        let _ ← p.firstLabel
        return .notFound) := by
  rw [locate]
  refine (tells_findLabel p launch m).bind fun l? hl? => ?_
  cases l? with
  | none => exact .pure _
  | some l => exact absurd hl? (h l)

/-- With a label, `locate` has asked for labels only when it comes to the mount point. -/
theorem perform_locate_found {l : Label} (h : p.firstLabel = .ok (some l)) :
    ∃ asked, (∀ q ∈ asked, q.isForLabel) ∧
      (p.surroundings launch).perform m ⟨t, s, []⟩ (locate mountPoint).run =
        (p.surroundings launch).perform m ⟨t, s, asked⟩ (do
          makeMountPoint mountPoint
          let location ← describe l
          return .found location (← ExceptT.lift (mount mountPoint location)) : RunM Detection).run := by
  obtain ⟨asked, hasked, hlabel⟩ :=
    tells_findLabel p launch m ⟨t, s, []⟩
  rw [h] at hlabel
  refine ⟨asked, hasked, ?_⟩
  rw [locate, perform_bindE_ok hlabel]
  rfl

/-- A mount point that cannot be made ends the run before it asks about the drive. -/
theorem perform_locate_no_mountPoint {l : Label} {e : SystemError}
    (h : p.firstLabel = .ok (some l)) (hm : (t.makeDirectories mountPoint).1 = .error e) :
    ∃ asked, (∀ q ∈ asked, q.isForLabel) ∧
      (p.surroundings launch).perform m ⟨t, s, []⟩ (locate mountPoint).run =
        (.ok (.error (.mountPoint mountPoint e)),
          ⟨(t.makeDirectories mountPoint).2, s, asked ++ [.makeMountPoint mountPoint]⟩) := by
  obtain ⟨asked, hasked, hlocate⟩ := perform_locate_found p launch m h
  refine ⟨asked, hasked, hlocate.trans (perform_bindE_error ?_)⟩
  rw [perform_makeMountPoint, hm]
  rfl

/-- With a mount point, `locate` finds what the probe describes. -/
theorem locate_described {l : Label} (h : p.firstLabel = .ok (some l))
    (hm : (t.makeDirectories mountPoint).1 = .ok ()) :
    (∃ e, p.describe l = .error e ∧
        ((p.surroundings launch).perform m ⟨t, s, []⟩ (locate mountPoint).run).1 =
          .ok (.error e)) ∨
      ∃ location outcome, p.describe l = .ok location ∧
        ((p.surroundings launch).perform m ⟨t, s, []⟩ (locate mountPoint).run).1 =
          .ok (.ok (.found location outcome)) := by
  obtain ⟨asked, -, hlocate⟩ := perform_locate_found p launch m h
  have hmade := perform_makeMountPoint p launch m mountPoint ⟨t, s, asked⟩
  dsimp only at hmade
  rw [hm] at hmade
  rw [hlocate, perform_bindE_ok hmade]
  obtain ⟨asked', -, hdescribe⟩ := tells_describe p launch m l
    ⟨(t.makeDirectories mountPoint).2, s, asked ++ [.makeMountPoint mountPoint]⟩
  cases hdrive : p.describe l with
  | error e =>
      rw [hdrive] at hdescribe
      exact .inl ⟨e, rfl, by rw [perform_bindE_error hdescribe]⟩
  | ok location =>
      rw [hdrive] at hdescribe
      obtain ⟨outcome, w', hmount⟩ := exists_mount_outcome p launch m
        mountPoint location ⟨(t.makeDirectories mountPoint).2, s,
          asked ++ [.makeMountPoint mountPoint] ++ asked'⟩
      refine .inr ⟨location, outcome, rfl, ?_⟩
      have hlift : (p.surroundings launch).perform m
          ⟨(t.makeDirectories mountPoint).2, s, asked ++ [.makeMountPoint mountPoint] ++ asked'⟩
          (ExceptT.lift (mount mountPoint location) : RunM MountOutcome).run =
            (.ok (.ok outcome), w') := by
        show (p.surroundings launch).perform m _ (Except.ok <$> mount mountPoint location) = _
        rw [← bind_pure_comp, Surroundings.perform_bind, hmount]
        rfl
      rw [perform_bindE_ok hdescribe, perform_bindE_ok hlift]
      rfl

/-- With a mount point, `locate` finds a drive exactly if the probe has it, and otherwise fails with the
error of the probe. -/
theorem locate_found_iff {l : Label} (h : p.firstLabel = .ok (some l))
    (hm : (t.makeDirectories mountPoint).1 = .ok ()) :
    (∀ location, p.location = .ok (some location) ↔
        ∃ outcome, ((p.surroundings launch).perform m ⟨t, s, []⟩ (locate mountPoint).run).1 =
          .ok (.ok (.found location outcome))) ∧
      ((∃ location, p.location = .ok (some location)) ∨
        ∃ e, p.location = .error e ∧
          ((p.surroundings launch).perform m ⟨t, s, []⟩ (locate mountPoint).run).1 =
            .ok (.error e)) := by
  have hlocation : p.location = (do return some (← p.describe l)) := by
    rw [Probe.location, h]
    rfl
  rcases locate_described p launch m (s := s) h hm with
    ⟨e, hdrive, hlocate⟩ | ⟨drive, outcome, hdrive, hlocate⟩
  · rw [hlocation, hdrive, hlocate]
    refine ⟨fun location => ⟨?_, ?_⟩, .inr ⟨e, rfl, rfl⟩⟩
    · intro hlooked
      cases hlooked
    · rintro ⟨_, hlocated⟩
      cases hlocated
  · rw [hlocation, hdrive, hlocate]
    refine ⟨fun location => ⟨?_, ?_⟩, .inl ⟨drive, rfl⟩⟩
    · intro hlooked
      cases hlooked
      exact ⟨outcome, rfl⟩
    · rintro ⟨_, hlocated⟩
      cases hlocated
      rfl

end

/-! ## Looking and mounting agree -/

/-- **Looking and mounting agree.**  For every probe whose answers are functions of the label, every
launcher and mounter, every tree of files and all settings, let `looked`, `located` and `reported` be what
`probe`, `locate` and `detect` come to in the same world.

Without a label, or with an error in the search for it, both answer the same.  With a label and a mount
point they find the same drive or fail with the same error.  With a label and no mount point `locate` fails
with the error of the mount point, before it asks for the device and without a word to the mounter;
`probe` answers what it always does.  It asks the probe alone, and leaves tree and mounter as they were.
The report describes the drive that `probe` found. -/
theorem probe_agrees_with_locate {ε μ : Type} (p : Probe)
    (launch : Invocation → ExceptT ε (StateM FileTree) (Except RunError Nat)) (m : Mounter μ)
    (c : Config) (t : FileTree) (s : μ) :
    let world := fun {α : Type} (x : RunM α) => (p.surroundings launch).perform m ⟨t, s, []⟩ x.run
    let looked := world Run.probe
    let located := world (locate c.mountPoint)
    let reported := world (detect c)
    (looked.1 = .ok p.location ∧ looked.2.rest = t ∧ looked.2.mounter = s ∧
        ∀ q ∈ looked.2.asked, q.isForProbe) ∧
      (p.firstLabel = .ok none → looked.1 = .ok (.ok none) ∧ located.1 = .ok (.ok .notFound)) ∧
      (∀ e, p.firstLabel = .error e → looked.1 = .ok (.error e) ∧ located.1 = .ok (.error e)) ∧
      (∀ l, p.firstLabel = .ok (some l) → (t.makeDirectories c.mountPoint).1 = .ok () →
        (∀ location, looked.1 = .ok (.ok (some location)) ↔
          ∃ outcome, located.1 = .ok (.ok (.found location outcome))) ∧
        ((∃ location, looked.1 = .ok (.ok (some location))) ∨
          ∃ e, looked.1 = .ok (.error e) ∧ located.1 = .ok (.error e))) ∧
      (∀ l e, p.firstLabel = .ok (some l) → (t.makeDirectories c.mountPoint).1 = .error e →
        located.1 = .ok (.error (.mountPoint c.mountPoint e)) ∧ located.2.mounter = s ∧
        ∃ labels, (∀ q ∈ labels, q.isForLabel) ∧
          located.2.asked = labels ++ [.makeMountPoint c.mountPoint]) ∧
      (∀ e, looked.1 = .ok (.error e) → reported.1 = .ok (.error e)) ∧
      ∀ location?, looked.1 = .ok (.ok location?) →
        ∃ r, reported.1 = .ok (.ok r) ∧ r.Describes location? := by
  intro world looked located reported
  obtain ⟨asked, hasked, hprobe⟩ := tells_probe p launch m ⟨t, s, []⟩
  have hlooked : looked = (.ok p.location, ⟨t, s, [] ++ asked⟩) := hprobe
  obtain ⟨_, -, hdetect⟩ := tells_detect p launch m c ⟨t, s, []⟩
  have hreported : reported.1 = .ok (do return ⟨← p.location, c.mountPoint⟩) :=
    congrArg Prod.fst hdetect
  have hlocated : (∀ l, p.firstLabel ≠ .ok (some l)) → located.1 = .ok (do
      let _ ← p.firstLabel
      return .notFound) := by
    intro hfirst
    have htells : Tells (p.surroundings launch) m (fun q => q.isForLabel) (locate c.mountPoint) _ :=
      tells_locate p launch m hfirst
    obtain ⟨_, -, hlocate⟩ := htells ⟨t, s, []⟩
    exact congrArg Prod.fst hlocate
  rw [hlooked, hreported]
  refine ⟨⟨rfl, rfl, rfl, hasked⟩, ?absent, ?searchFails, ?found, ?noMountPoint, ?error, ?report⟩
  case absent =>
    intro hfirst
    rw [hlocated (by simp [hfirst]), Probe.location, hfirst]
    exact ⟨rfl, rfl⟩
  case searchFails =>
    intro e hfirst
    rw [hlocated (by simp [hfirst]), Probe.location, hfirst]
    exact ⟨rfl, rfl⟩
  case found =>
    intro l hfirst hm
    obtain ⟨hiff, hends⟩ := locate_found_iff p launch m (s := s) hfirst hm
    refine ⟨fun location => ⟨fun h => (hiff location).mp (Except.ok.inj h), fun h => ?_⟩, ?_⟩
    · exact congrArg Except.ok ((hiff location).mpr h)
    · rcases hends with ⟨location, hlocation⟩ | ⟨e, hlocation, hlocate⟩
      · exact .inl ⟨location, congrArg Except.ok hlocation⟩
      · exact .inr ⟨e, congrArg Except.ok hlocation, hlocate⟩
  case noMountPoint =>
    intro l e hfirst hm
    obtain ⟨labels, hlabels, hlocate⟩ := perform_locate_no_mountPoint p launch m (s := s) hfirst hm
    have hlocated' : located = _ := hlocate
    rw [hlocated']
    exact ⟨rfl, rfl, labels, hlabels, rfl⟩
  case error =>
    intro e he
    have hlocation : p.location = .error e := Except.ok.inj he
    rw [hlocation]
    rfl
  case report =>
    intro location? hok
    have hlocation : p.location = .ok location? := Except.ok.inj hok
    rw [hlocation]
    exact ⟨_, rfl, Report.describes_location location? c.mountPoint⟩

end ConfigDrive.Run
