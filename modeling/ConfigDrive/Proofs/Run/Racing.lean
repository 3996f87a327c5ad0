/-
# ConfigDrive.Proofs.Run.Racing — runs that race for one mount point.

Runs that share a host with a drive mount it on the same target, and all but one of them fail.  Such a run
then reads the mount table, when others may have gone on in between, and has to find the target there.

Two things make this safe.  A run that has tried to mount knows that the target is listed from then on,
by itself or by another run, and this is all that a run has to remember (`Standing`); with it, the parts of
a run keep to a contract with the host (`meets_locate`, `meets_run`).  And the host keeps to its side in
every state that is reached (`Company.Racing.step`): the target is listed at most once, and the run that
mounted it is the only one.  So the runs tolerate each other (`tolerant_of_reachable`).
-/
import ConfigDrive.Proofs.Run.Company
import ConfigDrive.Proofs.Run.Orderly

namespace ConfigDrive.Run

open ConfigDrive.Drive

/-! ## What a run remembers -/

/-- What a run knows of its own attempt to mount. -/
inductive Standing
  | untried
  | mounted
  | refused
  deriving DecidableEq, Repr

/-- The first attempt decides. -/
def Standing.after : Standing → (q : Question) → q.Answer → Standing
  | .untried, .attemptMount _ _ _, .mounted => .mounted
  | .untried, .attemptMount _ _ _, _ => .refused
  | s, _, _ => s

/-- **The contract of a run with the host.**  It tries to mount on no other target and starts no other
tool, and once it has tried to mount, a table that it reads lists the target. -/
def contract (d : Drives) (target : String) (tool : Invocation) :
    Contract Question Question.Answer Standing where
  allows
    | _, .attemptMount _ target' _ => target' = target
    | _, .launch i => i = tool
    | _, _ => True
  grants
    | _, .hasLabel l, a => a = .ok (d.present l)
    | _, .deviceFor l, a => a = .ok (d.device l)
    | _, .filesystemType l, a => a = .ok (d.fsType l)
    | _, .makeMountPoint _, a => a = .ok ()
    | _, .attemptMount _ _ _, a => a = .mounted ∨ ∃ code stderr, a = .exited code stderr
    | s, .readMountTable, a => s ≠ .untried → ∃ table, a = .ok table ∧ table.hasTarget target = true
    | _, .launch _, a => ∃ status, a = .ok status
  after := Standing.after

/-- An attempt is not forgotten. -/
theorem Standing.after_of_tried {s : Standing} (h : s ≠ .untried) (q : Question) (a : q.Answer) :
    s.after q a = s := by
  cases s with
  | untried => exact absurd rfl h
  | mounted => rfl
  | refused => rfl

/-- The result is one of these, and no error. -/
def Succeeds {σ α : Type} (R : σ → α → Prop) (s : σ) (r : Except RunError α) : Prop :=
  ∃ a, r = .ok a ∧ R s a

section

variable {d : Drives} {target : String} {tool : Invocation} {α β : Type}
  {R : Standing → α → Prop} {S : Standing → β → Prop} {s : Standing}

theorem memory_of_tried (h : s ≠ .untried) (as : Transcript Question Question.Answer) :
    (contract d target tool).memory s as = s := by
  induction as with
  | nil => rfl
  | cons e as ih =>
      rw [Contract.memory]
      show (contract d target tool).memory (s.after e.1 e.2) as = s
      rw [Standing.after_of_tried h, ih]

/-- A part that cannot be given up goes on with any of its results. -/
theorem meets_bind {x : RunM α} {f : α → RunM β}
    (h : (contract d target tool).Meets (Succeeds R) s x.run)
    (h' : ∀ s a, R s a → (contract d target tool).Meets (Succeeds S) s (f a).run) :
    (contract d target tool).Meets (Succeeds S) s (x >>= f).run := by
  refine Contract.Meets.bind h ?_
  rintro s _ ⟨a, rfl, ha⟩
  exact h' s a ha

theorem meets_pure {a : α} (h : R s a) :
    (contract d target tool).Meets (Succeeds R) s (pure a : RunM α).run :=
  ⟨a, rfl, h⟩

theorem meets_say (level : Log.Level) (message : String) :
    (contract d target tool).Meets (Succeeds fun s' _ => s' = s) s (say level message).run :=
  ⟨(), rfl, rfl⟩

theorem meets_lift {p : Steps α} (h : (contract d target tool).Meets R s p) :
    (contract d target tool).Meets (Succeeds R) s (ExceptT.lift p : RunM α).run :=
  Contract.Meets.bind h fun _ a ha => ⟨a, rfl, ha⟩

/-- A report changes nothing for what comes after it. -/
theorem meets_say_bind {level : Log.Level} {message : String} {f : Unit → RunM β}
    (h : (contract d target tool).Meets (Succeeds S) s (f ()).run) :
    (contract d target tool).Meets (Succeeds S) s (say level message >>= f).run := by
  refine meets_bind (meets_say level message) ?_
  rintro _ _ rfl
  exact h

/-! ## The parts of a run -/

/-- The first label that is present is found, if there is one. -/
theorem meets_findAmong (ls : List Label) :
    (contract d target tool).Meets (Succeeds fun s l? => s = .untried ∧ l? = ls.find? d.present)
      .untried (findAmong ls).run := by
  induction ls with
  | nil => exact meets_say_bind (meets_pure ⟨rfl, rfl⟩)
  | cons l ls ih =>
      rw [findAmong]
      refine meets_say_bind ⟨trivial, ?_⟩
      rintro _ rfl
      cases hl : d.present l with
      | true => exact meets_say_bind (meets_pure ⟨rfl, (List.find?_cons_of_pos hl).symm⟩)
      | false =>
          rw [List.find?_cons_of_neg (by rw [hl]; exact Bool.false_ne_true)]
          exact ih

theorem meets_describe (l : Label) :
    (contract d target tool).Meets
      (Succeeds fun s location => s = .untried ∧ location = ⟨l, d.device l, d.fsType l⟩)
      .untried (describe l).run := by
  refine ⟨trivial, ?_⟩
  rintro _ rfl
  refine ⟨trivial, ?_⟩
  rintro _ rfl
  exact meets_say_bind (meets_pure ⟨rfl, rfl⟩)

/-- How the mount went is what the run remembers of its attempt. -/
def Standing.Explains (target : String) (s : Standing) (outcome : MountOutcome) : Prop :=
  s = .mounted ∧ outcome = .mounted ∨
    s = .refused ∧ outcome = .tolerated (.alreadyMounted target)

/-- **A mount that failed is classified as already there**, because the table that is read after it lists
the target. -/
theorem meets_classify (code : Option Nat) (stderr : String) :
    (contract d target tool).Meets (fun s failure => s = .refused ∧ failure = .alreadyMounted target)
      .refused (classify target code stderr) := by
  refine ⟨trivial, fun table htable => ?_⟩
  obtain ⟨table, rfl, hlisted⟩ := htable nofun
  show (contract d target tool).Meets _ _ (if table.hasTarget target = true then _ else _)
  rw [if_pos hlisted]
  exact ⟨rfl, rfl⟩

theorem meets_mountDevice (device : String) (options : MountOptions) :
    (contract d target tool).Meets
      (fun s r => s = .mounted ∧ r = .ok () ∨ s = .refused ∧ r = .error (.alreadyMounted target))
      .untried (mountDevice device target options) := by
  refine ⟨rfl, ?_⟩
  rintro _ (rfl | ⟨code, stderr, rfl⟩)
  · exact .inl ⟨rfl, rfl⟩
  · refine (meets_classify code stderr).bind ?_
    rintro _ _ ⟨rfl, rfl⟩
    exact .inr ⟨rfl, rfl⟩

theorem meets_mount (location : Location) :
    (contract d target tool).Meets (Standing.Explains target) .untried (mount target location) := by
  refine (meets_mountDevice location.device location.fsType.mountOptions).bind ?_
  rintro _ _ (⟨rfl, rfl⟩ | ⟨rfl, rfl⟩)
  · exact .inl ⟨rfl, rfl⟩
  · exact .inr ⟨rfl, rfl⟩

/-- What comes of looking for the drive when there is one. -/
def Standing.Located (target : String) (s : Standing) (detection : Detection) : Prop :=
  ∃ location outcome, detection = .found location outcome ∧ s.Explains target outcome

theorem meets_locate (hpresent : ∃ l, d.present l = true) :
    (contract d target tool).Meets (Succeeds (Standing.Located target)) .untried
      (locate target).run := by
  rw [locate]
  refine meets_bind (meets_findAmong Label.all) ?_
  rintro _ l? ⟨rfl, hl⟩
  cases l? with
  | none =>
      -- both labels are looked for, so one of them is found
      obtain ⟨l, hpresent⟩ := hpresent
      have habsent := List.find?_eq_none.mp hl.symm l (by cases l <;> decide)
      exact absurd hpresent habsent
  | some l =>
      refine ⟨trivial, ?_⟩
      rintro _ rfl
      refine meets_bind (meets_describe l) ?_
      rintro _ location ⟨rfl, -⟩
      refine meets_bind (meets_lift (meets_mount location)) ?_
      rintro s outcome h
      exact meets_pure ⟨location, outcome, rfl, h⟩

/-- The plan is the hand-off of a run that found a drive, however its mount went. -/
theorem meets_planVariant (hpresent : ∃ l, d.present l = true) (c : Config) (j : Job) :
    (contract d c.mountPoint tool).Meets (Succeeds fun _ h => h = .delegate (j.handoff c)) .untried
      (planVariant j.variant c j.forwarded).run := by
  rw [planVariant]
  refine meets_say_bind (meets_bind (meets_locate hpresent) ?_)
  rintro s _ ⟨location, outcome, rfl, -⟩
  exact meets_pure (plan_found c j.variant location outcome j.forwarded)

/-- **A run keeps to the contract**: it is not given up, and it starts the tool of its job. -/
theorem meets_run (hpresent : ∃ l, d.present l = true) (c : Config) (j : Job) :
    (contract d c.mountPoint (j.handoff c)).Meets (Succeeds fun _ _ => True) .untried (j.run c) := by
  rw [Job.run, runVariant]
  refine meets_say_bind (meets_bind (meets_planVariant hpresent c j) ?_)
  rintro s _ rfl
  refine meets_say_bind ⟨rfl, ?_⟩
  rintro _ ⟨status, rfl⟩
  exact ⟨status, rfl, trivial⟩

end

/-! ## Before and after the mount -/

/-- A run looks for the drive before it does anything else. -/
theorem follow_run (c : Config) (j : Job) :
    ∃ rest : Except RunError Detection → Steps (Except RunError Nat), ∀ as,
      (j.run c).follow as = ((locate c.mountPoint).run >>= rest).follow as := by
  rw [Job.run, runVariant, planVariant]
  simp only [bind_assoc]
  exact ⟨_, fun as => rfl⟩

theorem locate_asks_no_launch (mountPoint : String) :
    (locate mountPoint).run.AsksOnly fun q => q.isLaunch = false :=
  (orderly_locate (fun _ h => h) mountPoint).asksOnly

/-- A run that waits at its hand-off is past its mount step. -/
theorem Company.located_of_question {ι : Type} {c : Config} {jobs : ι → Job} {s : Company ι} {i : ι}
    {tool : Invocation} (h : (s.progress c jobs i).question? = some (.launch tool)) :
    (s.detection? c i).isSome = true := by
  obtain ⟨rest, hrest⟩ := follow_run c (jobs i)
  rw [Company.progress, hrest, Procedure.follow_bind] at h
  rw [Company.detection?]
  cases hw : (locate c.mountPoint).run.follow (s.answered i) with
  | ended r unused => rfl
  | waiting q next =>
      rw [hw] at h
      cases h
      exact nomatch (locate_asks_no_launch c.mountPoint).of_waiting hw
  | astray =>
      rw [hw] at h
      cases h

/-- A run that is past its mount step stays so. -/
theorem Company.located_answer {ι : Type} [DecidableEq ι] {c : Config} {s : Company ι} {j : ι}
    (h : (s.detection? c j).isSome = true) (i : ι) (q : Question) (a : q.Answer) (table : String) :
    ((s.answer i q a table).detection? c j).isSome = true := by
  by_cases hji : j = i
  · subst hji
    obtain ⟨r, hr⟩ := Option.isSome_iff_exists.mp h
    obtain ⟨unused, hended⟩ := Progress.result?_eq_some_iff.mp hr
    rw [Company.detection?, Company.answered_self, Procedure.follow_append_of_ended hended]
    rfl
  · rw [Company.detection?, Company.answered_of_ne s hji]
    exact h

/-! ## What every step preserves -/

section

variable {ι : Type} {d : Drives} {c : Config} {jobs : ι → Job}

/-- The contract of one of the runs. -/
def Job.contract (d : Drives) (c : Config) (j : Job) : Contract Question Question.Answer Standing :=
  Run.contract d c.mountPoint (j.handoff c)

/-- What a run remembers of its attempt to mount. -/
def Company.standing (d : Drives) (c : Config) (jobs : ι → Job) (s : Company ι) (i : ι) : Standing :=
  ((jobs i).contract d c).memory .untried (s.answered i)

/-- **The invariant of runs that race.**  The target is listed at most once, and as soon as a run has
tried to mount; one run at most has mounted it; what the host answered is lawful, and every tool that was
started is the one of its run. -/
structure Company.Racing (d : Drives) (c : Config) (jobs : ι → Job) (s : Company ι) : Prop where
  once : listings s.table c.mountPoint ≤ 1
  listed : ∀ i, s.standing d c jobs i ≠ .untried → listings s.table c.mountPoint = 1
  unique : ∀ i j, s.standing d c jobs i = .mounted → s.standing d c jobs j = .mounted → i = j
  lawful : ∀ i, ((jobs i).contract d c).Lawful .untried (s.answered i)
  handed : ∀ i tool a, ⟨.launch tool, a⟩ ∈ s.answered i →
    tool = (jobs i).handoff c ∧ (s.detection? c i).isSome = true

/-- What a step that the contract allows does to the mount table and to what its run remembers. -/
inductive Drives.Effect (target : String) (s : Standing) (table : String) : String → Standing → Prop
  | quiet : Effect target s table table s
  | mounts {table' : String} (hfree : listings table target = 0) (hadded : listings table' target = 1)
      (huntried : s = .untried) : Effect target s table table' .mounted
  | refused (hlisted : listings table target = 1) (huntried : s = .untried) :
      Effect target s table table .refused

variable {target : String} {tool : Invocation} {s : Standing} {table table' : String} {q : Question}
  {a : q.Answer}

theorem Drives.Answers.effect (ha : d.Answers table q a table')
    (hq : (Run.contract d target tool).allows s q) (honce : listings table target ≤ 1)
    (htried : s ≠ .untried → listings table target = 1) :
    Drives.Effect target s table table' (s.after q a) := by
  cases ha with
  | mounts device target' options hfree hadded =>
      obtain rfl : target' = target := hq
      cases s with
      | untried => exact .mounts hfree hadded rfl
      | mounted => exact absurd (htried nofun) (hfree ▸ Nat.zero_ne_one)
      | refused => exact absurd (htried nofun) (hfree ▸ Nat.zero_ne_one)
  | mountFails device target' options hlisted hcode stderr =>
      obtain rfl : target' = target := hq
      cases s with
      | untried => exact .refused (by omega) rfl
      | mounted => exact .quiet
      | refused => exact .quiet
  | _ => cases s <;> exact .quiet

namespace Drives.Effect

variable {s' : Standing}

/-- A target that is listed stays listed, and is not listed twice. -/
theorem stays (h : Drives.Effect target s table table' s') (hlisted : listings table target = 1) :
    listings table' target = 1 := by
  cases h with
  | quiet => exact hlisted
  | mounts hfree hadded huntried => exact hadded
  | refused hlisted huntried => exact hlisted

theorem once (h : Drives.Effect target s table table' s') (honce : listings table target ≤ 1) :
    listings table' target ≤ 1 := by
  cases h with
  | quiet => exact honce
  | mounts hfree hadded huntried => exact Nat.le_of_eq hadded
  | refused hlisted huntried => exact honce

theorem listed (h : Drives.Effect target s table table' s')
    (htried : s ≠ .untried → listings table target = 1) (htried' : s' ≠ .untried) :
    listings table' target = 1 := by
  cases h with
  | quiet => exact htried htried'
  | mounts hfree hadded huntried => exact hadded
  | refused hlisted huntried => exact hlisted

/-- A run becomes the one that mounted the target only when nobody had. -/
theorem mounted (h : Drives.Effect target s table table' .mounted) :
    s = .mounted ∨ listings table target = 0 := by
  cases h with
  | quiet => exact .inl rfl
  | mounts hfree hadded huntried => exact .inr hfree

end Drives.Effect

/-- The host keeps to the contract of a run that has tried to mount only if the target is listed. -/
theorem Drives.Answers.grants (ha : d.Answers table q a table')
    (htried : s ≠ .untried → listings table target = 1) :
    (Run.contract d target tool).grants s q a := by
  cases ha with
  | mounts device target' options hfree hadded => exact .inl rfl
  | mountFails device target' options hlisted hcode stderr => exact .inr ⟨_, stderr, rfl⟩
  | readMountTable =>
      intro hs
      refine ⟨_, rfl, hasTarget_iff.mpr ?_⟩
      rw [htried hs]
      exact Nat.one_pos
  | launch hmode status => exact ⟨status, rfl⟩
  | _ => rfl

namespace Company.Racing

theorem start (hfree : listings table c.mountPoint = 0) :
    (Company.start table : Company ι).Racing d c jobs where
  once := hfree ▸ Nat.zero_le 1
  listed _ h := absurd rfl h
  unique _ _ h := nomatch h
  lawful _ := trivial
  handed _ _ _ h := nomatch h

variable {co co' : Company ι}

theorem allows (h : co.Racing d c jobs) (hpresent : ∃ l, d.present l = true) {i : ι}
    (hq : (co.progress c jobs i).question? = some q) :
    ((jobs i).contract d c).allows (co.standing d c jobs i) q := by
  obtain ⟨next, hwaiting⟩ := Progress.question?_eq_some_iff.mp hq
  exact (meets_run hpresent c (jobs i)).of_waiting (h.lawful i) hwaiting

/-- **What is reached is the outcome that the run remembers.** -/
theorem detection_explained (h : co.Racing d c jobs) (hpresent : ∃ l, d.present l = true) {i : ι}
    {r : Except RunError Detection} (hr : co.detection? c i = some r) :
    ∃ location outcome, r = .ok (.found location outcome) ∧
      (co.standing d c jobs i).Explains c.mountPoint outcome := by
  obtain ⟨unused, hended⟩ := Progress.result?_eq_some_iff.mp hr
  obtain ⟨s', ⟨_, rfl, location, outcome, rfl, hexplains⟩, -, hmemory⟩ :=
    (meets_locate hpresent).of_ended (h.lawful i) hended
  -- what is answered after the mount step does not change what is remembered of it
  have htried : s' ≠ .untried := by
    rcases hexplains with ⟨rfl, -⟩ | ⟨rfl, -⟩ <;> exact nofun
  rw [memory_of_tried htried] at hmemory
  subst hmemory
  exact ⟨location, outcome, rfl, hexplains⟩

/-- A run has no result but its end. -/
theorem succeeds_of_result (h : co.Racing d c jobs) (hpresent : ∃ l, d.present l = true) {i : ι}
    {r : Except RunError Nat} (hr : (co.progress c jobs i).result? = some r) :
    ∃ status, r = .ok status := by
  obtain ⟨unused, hended⟩ := Progress.result?_eq_some_iff.mp hr
  obtain ⟨s', ⟨status, rfl, -⟩, -, -⟩ := (meets_run hpresent c (jobs i)).of_ended (h.lawful i) hended
  exact ⟨status, rfl⟩

/-- A run comes to its hand-off after its mount step, with the tool of its job. -/
theorem of_handsOff (h : co.Racing d c jobs) (hpresent : ∃ l, d.present l = true) {i : ι}
    {tool : Invocation} (hoff : co.HandsOff c jobs i tool) :
    tool = (jobs i).handoff c ∧ (co.detection? c i).isSome = true := by
  rcases hoff with hq | ⟨a, hmem⟩
  · exact ⟨h.allows hpresent hq, Company.located_of_question hq⟩
  · exact h.handed i tool a hmem

variable [DecidableEq ι]

theorem standing_self (i : ι) :
    (co.answer i q a table').standing d c jobs i = (co.standing d c jobs i).after q a := by
  rw [Company.standing, Company.answered_self, Contract.memory_append_singleton]
  rfl

theorem standing_of_ne {i j : ι} (h : j ≠ i) :
    (co.answer i q a table').standing d c jobs j = co.standing d c jobs j := by
  rw [Company.standing, Company.answered_of_ne co h]
  rfl

/-- What was answered before stays, and what is answered now is lawful. -/
theorem lawful_answer (h : co.Racing d c jobs) {i : ι}
    (hgrants : ((jobs i).contract d c).grants (co.standing d c jobs i) q a) (j : ι) :
    ((jobs j).contract d c).Lawful .untried ((co.answer i q a table').answered j) := by
  by_cases hj : j = i
  · subst hj
    rw [Company.answered_self]
    exact Contract.lawful_append_singleton.mpr ⟨h.lawful j, hgrants⟩
  · rw [Company.answered_of_ne co hj]
    exact h.lawful j

/-- A tool that was started is the one of its run, because a run asks for no other. -/
theorem handed_answer (h : co.Racing d c jobs) (hpresent : ∃ l, d.present l = true) {i : ι}
    (hq : (co.progress c jobs i).question? = some q) (j : ι) (tool : Invocation)
    (b : Except RunError Nat) (hmem : ⟨.launch tool, b⟩ ∈ (co.answer i q a table').answered j) :
    tool = (jobs j).handoff c ∧ ((co.answer i q a table').detection? c j).isSome = true := by
  have hbefore : ⟨.launch tool, b⟩ ∈ co.answered j → tool = (jobs j).handoff c ∧
      ((co.answer i q a table').detection? c j).isSome = true := by
    intro hmem
    obtain ⟨htool, hlocated⟩ := h.handed j tool b hmem
    exact ⟨htool, Company.located_answer hlocated i q a table'⟩
  by_cases hji : j = i
  · subst hji
    rw [Company.answered_self] at hmem
    rcases List.mem_append.mp hmem with hmem | hnow
    · exact hbefore hmem
    · cases List.mem_singleton.mp hnow
      exact ⟨h.allows hpresent hq,
        Company.located_answer (Company.located_of_question hq) j _ _ table'⟩
  · rw [Company.answered_of_ne co hji] at hmem
    exact hbefore hmem

/-- **Every step preserves the invariant.** -/
theorem step (h : co.Racing d c jobs) (hpresent : ∃ l, d.present l = true)
    (hstep : Company.Step d c jobs co co') : co'.Racing d c jobs := by
  obtain ⟨i, hq, ha⟩ := hstep
  rename_i table' q a
  have hallows := h.allows hpresent hq
  have hgrants : ((jobs i).contract d c).grants (co.standing d c jobs i) q a := ha.grants (h.listed i)
  have heffect : Drives.Effect c.mountPoint (co.standing d c jobs i) co.table table'
      ((co.answer i q a table').standing d c jobs i) := by
    rw [standing_self]
    exact ha.effect hallows h.once (h.listed i)
  refine ⟨heffect.once h.once, fun j hj => ?_, fun j k hj hk => ?_, h.lawful_answer hgrants,
    h.handed_answer hpresent hq⟩
  · by_cases hji : j = i
    · subst hji
      exact heffect.listed (h.listed j) hj
    · rw [standing_of_ne hji] at hj
      exact heffect.stays (h.listed j hj)
  · have hfresh : ∀ j, (co.answer i q a table').standing d c jobs j = .mounted →
        co.standing d c jobs j = .mounted ∨ j = i ∧ listings co.table c.mountPoint = 0 := by
      intro j hj
      by_cases hji : j = i
      · subst hji
        rw [hj] at heffect
        exact heffect.mounted.imp_right fun hfree => ⟨rfl, hfree⟩
      · rw [standing_of_ne hji] at hj
        exact .inl hj
    have htaken : ∀ j, co.standing d c jobs j = .mounted → listings co.table c.mountPoint ≠ 0 := by
      intro j hj
      rw [h.listed j (by rw [hj]; exact nofun)]
      exact Nat.one_ne_zero
    rcases hfresh j hj with hj' | ⟨rfl, hfree⟩ <;> rcases hfresh k hk with hk' | ⟨rfl, hfree'⟩
    · exact h.unique j k hj' hk'
    · exact absurd hfree' (htaken j hj')
    · exact absurd hfree (htaken k hk')
    · rfl

theorem of_reachable (hpresent : ∃ l, d.present l = true) (hfree : listings table c.mountPoint = 0)
    (h : Company.Reachable d c jobs table co) : co.Racing d c jobs := by
  induction h with
  | refl => exact .start hfree
  | tail _ hstep ih => exact ih.step hpresent hstep

end Company.Racing

/-! ## Runs tolerate each other -/

/-- **What is promised of runs that share a host.** -/
structure Company.Tolerant (d : Drives) (c : Config) (jobs : ι → Job) (table : String)
    (s : Company ι) : Prop where
  /-- The mount table lists the target once, or not yet. -/
  listed_once : listings s.table c.mountPoint ≤ 1
  /-- At most one run has mounted the drive. -/
  mounted_once : ∀ i j a b, s.detection? c i = some (.ok (.found a .mounted)) →
    s.detection? c j = some (.ok (.found b .mounted)) → i = j
  /-- Every run past its mount step has found the drive and either mounted it or tolerates that it is
  mounted already. -/
  tolerated : ∀ i r, s.detection? c i = some r → ∃ location, r = .ok (.found location .mounted) ∨
    r = .ok (.found location (.tolerated (.alreadyMounted c.mountPoint)))
  /-- No run has failed. -/
  not_failed : ∀ i e, (s.progress c jobs i).result? ≠ some (.error e)
  /-- A run that comes to its hand-off is past its mount step. -/
  mount_first : ∀ i tool, s.HandsOff c jobs i tool → (s.detection? c i).isSome = true
  /-- The hand-off of a run is the one of its job when a drive is present. -/
  handoff : ∀ i tool, s.HandsOff c jobs i tool → tool = (jobs i).handoff c
  /-- It is also the hand-off that the run comes to alone on the host. -/
  handoff_alone : ∀ i tool, s.HandsOff c jobs i tool → ∀ (alone : Company Unit) (tool' : Invocation),
    Company.Reachable d c (fun _ => jobs i) table alone →
      alone.HandsOff c (fun _ => jobs i) () tool' → tool = tool'

variable [DecidableEq ι]

/-- **Runs tolerate each other.**  On a host where a drive is present and the target is not listed at
first, this holds in every state that any number of runs can come to. -/
theorem tolerant_of_reachable (hpresent : ∃ l, d.present l = true)
    (hfree : listings table c.mountPoint = 0) {s : Company ι}
    (h : Company.Reachable d c jobs table s) : s.Tolerant d c jobs table := by
  have hracing := Company.Racing.of_reachable hpresent hfree h
  have hmounted : ∀ i a, s.detection? c i = some (.ok (.found a .mounted)) →
      s.standing d c jobs i = .mounted := by
    intro i a hi
    obtain ⟨location, outcome, heq, ⟨hstanding, -⟩ | ⟨-, rfl⟩⟩ :=
      hracing.detection_explained hpresent hi
    · exact hstanding
    · cases heq
  constructor
  case listed_once => exact hracing.once
  case mounted_once =>
    intro i j a b hi hj
    exact hracing.unique i j (hmounted i a hi) (hmounted j b hj)
  case tolerated =>
    intro i r hr
    obtain ⟨location, outcome, rfl, ⟨-, rfl⟩ | ⟨-, rfl⟩⟩ := hracing.detection_explained hpresent hr
    · exact ⟨location, .inl rfl⟩
    · exact ⟨location, .inr rfl⟩
  case not_failed =>
    intro i e he
    obtain ⟨status, hstatus⟩ := hracing.succeeds_of_result hpresent he
    cases hstatus
  case mount_first => exact fun i tool hoff => (hracing.of_handsOff hpresent hoff).2
  case handoff => exact fun i tool hoff => (hracing.of_handsOff hpresent hoff).1
  case handoff_alone =>
    intro i tool hoff alone tool' halone hoff'
    have hracing' := Company.Racing.of_reachable hpresent hfree halone
    exact (hracing.of_handsOff hpresent hoff).1.trans (hracing'.of_handsOff hpresent hoff').1.symm

/-! ## In turns -/

variable {mounted : String} {s : Company ι}

/-- A turn is a step, or nothing happens. -/
theorem reachable_turn (hpresent : ∃ l, d.present l = true) (hfree : listings table c.mountPoint = 0)
    (hmounted : listings mounted c.mountPoint = 1) (h : Company.Reachable d c jobs table s) (i : ι) :
    Company.Reachable d c jobs table (s.turn d c jobs mounted i) := by
  rw [Company.turn]
  cases hq : (s.progress c jobs i).question? with
  | none => exact h
  | some q =>
      dsimp only
      by_cases hreplaces : q.replaces = true
      · rw [if_pos hreplaces]
        exact h
      · rw [if_neg hreplaces]
        have hallows := (Company.Racing.of_reachable hpresent hfree h).allows hpresent hq
        refine h.tail (.mk i hq (d.answers_reply ?_ (Bool.not_eq_true _ ▸ hreplaces)))
        rintro device target options rfl
        obtain rfl : target = c.mountPoint := hallows
        exact hmounted

/-- **Every order of turns is possible**, if the target can be mounted at all. -/
theorem reachable_play (hpresent : ∃ l, d.present l = true) (hfree : listings table c.mountPoint = 0)
    (hmounted : listings mounted c.mountPoint = 1) (order : List ι) :
    Company.Reachable d c jobs table (Company.play d c jobs mounted table order) := by
  have hfold : ∀ s, Company.Reachable d c jobs table s →
      Company.Reachable d c jobs table (order.foldl (Company.turn d c jobs mounted) s) := by
    induction order with
    | nil => exact fun s h => h
    | cons i order ih => exact fun s h => ih _ (reachable_turn hpresent hfree hmounted h i)
  exact hfold _ .refl

end

/-! ## Two runs -/

/-- A host with a single drive, known by the label in capitals. -/
def soleDrive : Drives where
  present l := l == .upper
  device _ := "/dev/sr0"
  fsType _ := .iso9660

/-- A run at early boot for an interface, and one later. -/
def sampleJobs : Bool → Job
  | false => ⟨.early, ["eth0"]⟩
  | true => ⟨.general, []⟩

/-- The mount table of a host with a root, and with the drive on the default mount point. -/
def sampleTable : String :=
  "/dev/vda1 / ext4 rw 0 0\n"

def sampleTableMounted : String :=
  sampleTable ++ "/dev/sr0 /mnt/config iso9660 ro,mode=0700 0 0\n"

/-- The two runs look for the drive side by side.  The later one mounts it and goes on to its tool, before
the early one has read why its own mount failed. -/
def sampleRace : Company Bool :=
  .play soleDrive {} sampleJobs sampleTableMounted sampleTable
    ([false, true, false, true, false, true, false, true, false, true] ++ [true, false, true, false])

theorem sampleRace_tolerant :
    sampleRace.Tolerant soleDrive {} sampleJobs sampleTable ∧
      sampleRace.detection? {} true = some (.ok (.found ⟨.upper, "/dev/sr0", .iso9660⟩ .mounted)) ∧
      sampleRace.detection? {} false = some (.ok (.found ⟨.upper, "/dev/sr0", .iso9660⟩
        (.tolerated (.alreadyMounted "/mnt/config")))) ∧
      sampleRace.HandsOff {} sampleJobs false
        ⟨"glean", ["--ssh", "--hostname", "--skip-network", "eth0"], .replace⟩ := by
  have hpresent : ∃ l, soleDrive.present l = true := ⟨.upper, rfl⟩
  have hfree : listings sampleTable ({} : Config).mountPoint = 0 := by decide +kernel
  have hmounted : listings sampleTableMounted ({} : Config).mountPoint = 1 := by decide +kernel
  refine ⟨tolerant_of_reachable hpresent hfree (reachable_play hpresent hfree hmounted _), ?_, ?_, ?_⟩
  · rfl
  · rfl
  · exact .inl rfl

end ConfigDrive.Run
