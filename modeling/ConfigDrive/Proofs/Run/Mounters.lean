/-
# ConfigDrive.Proofs.Run.Mounters — the mount does not matter for the hand-off.

A run is given to two mounters that may answer whatever they like, as long as everything else around them
is the same: the probe, the files and the launcher.  Then it asks the same questions in the same order,
the request to mount among them, and it ends in the same way (`runVariant_mounters`).

The two runs are not step by step alike, because a mount that failed is classified and reported.  So the
proof relates procedures rather than steps.  `Agree R p q` says that `p` with the one mounter and `q` with
the other leave the rest of the world and the questions alike and have results related by `R`; what only
the mounter sees is `Quiet` and agrees with anything quiet.  Each part of a run agrees with itself, and
up to the outcome of the mount the whole does.
-/
import ConfigDrive.Run.Variant

namespace ConfigDrive.Run

open ConfigDrive.Drive (Detection FilesystemType Label Location MountFailure MountOptions
  MountOutcome MountTable)

/-! ## Worlds -/

/-- What is around a run but for the mounter: the probe, the files and the launcher, on a state of their
own.  An error ends the process, as it does when it is replaced. -/
structure Surroundings (ε ρ : Type) where
  hasLabel : Label → ExceptT ε (StateM ρ) (Except RunError Bool)
  deviceFor : Label → ExceptT ε (StateM ρ) (Except RunError String)
  filesystemType : Label → ExceptT ε (StateM ρ) (Except RunError FilesystemType)
  makeMountPoint : String → ExceptT ε (StateM ρ) (Except SystemError Unit)
  launch : Invocation → ExceptT ε (StateM ρ) (Except RunError Nat)

/-- What mounts a drive, and the mount table that goes with it. -/
structure Mounter (μ : Type) where
  attempt : String → String → MountOptions → StateM μ MountAttempt
  table : StateM μ (Except UnreadableTable MountTable)

/-- The states of both, and the questions that were asked.  Reading the mount table is left to the
mounter and is not among them. -/
structure World (ρ μ : Type) where
  rest : ρ
  mounter : μ
  asked : List Question

namespace World

variable {ε ρ μ α : Type}

/-- Note a question, and let what is around the run answer it. -/
def ask (q : Question) (x : ExceptT ε (StateM ρ) α) : ExceptT ε (StateM (World ρ μ)) α :=
  ExceptT.mk fun w =>
    let (r, rest) := x.run.run w.rest
    (r, { w with rest, asked := w.asked ++ [q] })

/-- Let the mounter do something. -/
def turnTo (x : StateM μ α) : ExceptT ε (StateM (World ρ μ)) α :=
  ExceptT.mk fun w =>
    let (a, mounter) := x.run w.mounter
    (.ok a, { w with mounter })

/-- Note a question to the mounter. -/
def note (q : Question) : ExceptT ε (StateM (World ρ μ)) Unit :=
  modify fun w => { w with asked := w.asked ++ [q] }

end World

variable {ε ρ μ : Type}

namespace Surroundings

/-- Answer a question of a run. -/
def answer (b : Surroundings ε ρ) (m : Mounter μ) :
    (q : Question) → ExceptT ε (StateM (World ρ μ)) q.Answer
  | .hasLabel l => World.ask (.hasLabel l) (b.hasLabel l)
  | .deviceFor l => World.ask (.deviceFor l) (b.deviceFor l)
  | .filesystemType l => World.ask (.filesystemType l) (b.filesystemType l)
  | .makeMountPoint path => World.ask (.makeMountPoint path) (b.makeMountPoint path)
  | .attemptMount device target options => do
    World.note (.attemptMount device target options)
    World.turnTo (m.attempt device target options)
  | .readMountTable => World.turnTo m.table
  | .launch i => World.ask (.launch i) (b.launch i)

/-- The result of a part of a run in a world, and the world after it. -/
def perform {α : Type} (b : Surroundings ε ρ) (m : Mounter μ) (w : World ρ μ) (p : Steps α) :
    Except ε α × World ρ μ :=
  (p.run (fun _ => pure ()) (b.answer m)).run.run w

theorem perform_bind {α β : Type} (b : Surroundings ε ρ) (m : Mounter μ) (w : World ρ μ)
    (p : Steps α) (f : α → Steps β) :
    b.perform m w (p >>= f) =
      match b.perform m w p with
      | (.ok a, w') => b.perform m w' (f a)
      | (.error e, w') => (.error e, w') := by
  have hp : (p.run (fun _ => pure ()) (b.answer m)).run.run w = b.perform m w p := rfl
  rw [perform, Procedure.run_bind, run_bind_state, hp]
  rcases b.perform m w p with ⟨_ | _, w'⟩ <;> rfl

theorem perform_question (b : Surroundings ε ρ) (m : Mounter μ) (w : World ρ μ) (q : Question) :
    b.perform m w (.question q) = (b.answer m q).run.run w := by
  have hq : (Procedure.question q).run (fun _ => pure ()) (b.answer m) = b.answer m q := bind_pure _
  rw [perform, hq]

end Surroundings

/-! ## Agreement -/

section

variable {μ₁ μ₂ α β γ δ : Type} (b : Surroundings ε ρ) (m₁ : Mounter μ₁) (m₂ : Mounter μ₂)

/-- The same error, or results that are related. -/
inductive Alike {η α β : Type} (R : α → β → Prop) : Except η α → Except η β → Prop
  | ok {a : α} {a' : β} (h : R a a') : Alike R (.ok a) (.ok a')
  | error (e : η) : Alike R (.error e) (.error e)

theorem Alike.refl {η α : Type} (r : Except η α) : Alike Eq r r := by
  cases r with
  | ok a => exact .ok rfl
  | error e => exact .error e

theorem Alike.eq {η α : Type} {r r' : Except η α} (h : Alike Eq r r') : r = r' := by
  cases h with
  | ok h => rw [h]
  | error e => rfl

theorem Alike.mono {η α β : Type} {R S : α → β → Prop} {r : Except η α} {r' : Except η β}
    (h : Alike R r r') (h' : ∀ a a', R a a' → S a a') : Alike S r r' := by
  cases h with
  | ok h => exact .ok (h' _ _ h)
  | error e => exact .error e

/-- Two procedures, each with a mounter of its own, leave the rest of the world and the questions alike
and have related results. -/
def Agree (R : α → β → Prop) (p : Steps α) (q : Steps β) : Prop :=
  ∀ (w₁ : World ρ μ₁) (w₂ : World ρ μ₂), w₁.rest = w₂.rest → w₁.asked = w₂.asked →
    Alike R (b.perform m₁ w₁ p).1 (b.perform m₂ w₂ q).1 ∧
      (b.perform m₁ w₁ p).2.rest = (b.perform m₂ w₂ q).2.rest ∧
      (b.perform m₁ w₁ p).2.asked = (b.perform m₂ w₂ q).2.asked

/-- The procedure changes nothing that others than the mounter see. -/
def Quiet (m : Mounter μ) (p : Steps α) : Prop :=
  ∀ w : World ρ μ, ∃ a w', b.perform m w p = (.ok a, w') ∧ w'.rest = w.rest ∧ w'.asked = w.asked

variable {b m₁ m₂}

theorem Agree.pure {R : α → β → Prop} {a : α} {a' : β} (h : R a a') :
    Agree b m₁ m₂ R (pure a) (pure a') :=
  fun _ _ hrest hasked => ⟨.ok h, hrest, hasked⟩

theorem Agree.bind {R : α → β → Prop} {S : γ → δ → Prop} {p : Steps α} {q : Steps β}
    {f : α → Steps γ} {g : β → Steps δ} (h : Agree b m₁ m₂ R p q)
    (h' : ∀ a a', R a a' → Agree b m₁ m₂ S (f a) (g a')) :
    Agree b m₁ m₂ S (p >>= f) (q >>= g) := by
  intro w₁ w₂ hrest hasked
  obtain ⟨halike, hrest', hasked'⟩ := h w₁ w₂ hrest hasked
  rw [b.perform_bind, b.perform_bind]
  rcases hp : b.perform m₁ w₁ p with ⟨r₁, w₁'⟩
  rcases hq : b.perform m₂ w₂ q with ⟨r₂, w₂'⟩
  rw [hp, hq] at halike hrest' hasked'
  cases halike with
  | ok hR => exact h' _ _ hR w₁' w₂' hrest' hasked'
  | error e => exact ⟨.error e, hrest', hasked'⟩

theorem Agree.mono {R S : α → β → Prop} {p : Steps α} {q : Steps β} (h : Agree b m₁ m₂ R p q)
    (h' : ∀ a a', R a a' → S a a') : Agree b m₁ m₂ S p q := by
  intro w₁ w₂ hrest hasked
  obtain ⟨halike, hrest', hasked'⟩ := h w₁ w₂ hrest hasked
  exact ⟨halike.mono h', hrest', hasked'⟩

theorem Quiet.agree {p : Steps α} {q : Steps β} (hp : Quiet b m₁ p) (hq : Quiet b m₂ q) :
    Agree b m₁ m₂ (fun _ _ => True) p q := by
  intro w₁ w₂ hrest hasked
  obtain ⟨a, w₁', hp, hrest₁, hasked₁⟩ := hp w₁
  obtain ⟨a', w₂', hq, hrest₂, hasked₂⟩ := hq w₂
  rw [hp, hq]
  refine ⟨.ok trivial, ?_, ?_⟩
  · show w₁'.rest = w₂'.rest
    rw [hrest₁, hrest₂, hrest]
  · show w₁'.asked = w₂'.asked
    rw [hasked₁, hasked₂, hasked]

theorem Quiet.pure {m : Mounter μ} (a : α) : Quiet b m (pure a) :=
  fun w => ⟨a, w, rfl, rfl, rfl⟩

theorem Quiet.say {m : Mounter μ} (level : Log.Level) (message : String) :
    Quiet b m (.say level message) :=
  fun w => ⟨(), w, rfl, rfl, rfl⟩

theorem Quiet.bind {m : Mounter μ} {p : Steps α} {f : α → Steps β} (h : Quiet b m p)
    (h' : ∀ a, Quiet b m (f a)) : Quiet b m (p >>= f) := by
  intro w
  obtain ⟨a, w', hp, hrest, hasked⟩ := h w
  obtain ⟨a', w'', hf, hrest', hasked'⟩ := h' a w'
  refine ⟨a', w'', ?_, hrest'.trans hrest, hasked'.trans hasked⟩
  rw [b.perform_bind, hp]
  exact hf

/-! ## Questions -/

/-- The answer to a question depends on the mounter. -/
def Question.isForMounter : Question → Bool
  | .attemptMount _ _ _ => true
  | .readMountTable => true
  | _ => false

theorem agree_ask {q : Question} {x : ExceptT ε (StateM ρ) q.Answer}
    (h₁ : b.answer m₁ q = World.ask q x) (h₂ : b.answer m₂ q = World.ask q x) :
    Agree b m₁ m₂ Eq (.question q) (.question q) := by
  intro w₁ w₂ hrest hasked
  rw [b.perform_question, b.perform_question, h₁, h₂]
  show Alike Eq (x.run.run w₁.rest).1 (x.run.run w₂.rest).1 ∧
    (x.run.run w₁.rest).2 = (x.run.run w₂.rest).2 ∧ w₁.asked ++ [q] = w₂.asked ++ [q]
  rw [hrest, hasked]
  exact ⟨.refl _, rfl, rfl⟩

/-- **A question that is not for the mounter** has one answer in both worlds. -/
theorem agree_question {q : Question} (hq : q.isForMounter = false) :
    Agree b m₁ m₂ Eq (.question q) (.question q) := by
  cases q with
  | attemptMount | readMountTable => cases hq
  | _ => exact agree_ask rfl rfl

/-- The request to mount is the same, whatever the answers. -/
theorem agree_attemptMount (device target : String) (options : MountOptions) :
    Agree b m₁ m₂ (fun _ _ => True) (attemptMount device target options)
      (attemptMount device target options) := by
  intro w₁ w₂ hrest hasked
  rw [attemptMount, b.perform_question, b.perform_question]
  refine ⟨.ok trivial, hrest, ?_⟩
  show w₁.asked ++ [_] = w₂.asked ++ [_]
  rw [hasked]

theorem quiet_readMountTable (m : Mounter μ) : Quiet b m readMountTable := by
  intro w
  refine ⟨(m.table.run w.mounter).1, { w with mounter := (m.table.run w.mounter).2 }, ?_, rfl, rfl⟩
  rw [readMountTable, b.perform_question]
  rfl

/-! ## The mount -/

theorem quiet_classify (m : Mounter μ) (target : String) (code : Option Nat) (stderr : String) :
    Quiet b m (classify target code stderr) := by
  rw [classify]
  refine (quiet_readMountTable m).bind fun table => ?_
  cases table with
  | ok table =>
      dsimp only
      split <;> exact .pure _
  | error e => exact (Quiet.say _ _).bind fun _ => .pure _

/-- What is left of a mount after the request is nobody else's business. -/
theorem quiet_afterAttempt (m : Mounter μ) (target : String) (attempt : MountAttempt) :
    Quiet b m (match attempt with
      | .mounted => return .ok ()
      | .refused failure => return .error failure
      | .exited code stderr => return .error (← classify target code stderr) :
      Steps (Except MountFailure Unit)) := by
  cases attempt with
  | mounted => exact .pure _
  | refused failure => exact .pure _
  | exited code stderr => exact (quiet_classify m target code stderr).bind fun _ => .pure _

/-- Neither does anyone else learn of the report on how the mount went. -/
theorem quiet_report (m : Mounter μ) (mountPoint : String) (location : Location)
    (r : Except MountFailure Unit) :
    Quiet b m (match r with
      | .ok () => do
        .say .info ("Mounted " ++ location.device ++ " on " ++ mountPoint ++ " (" ++
          location.fsType.mountOptions.options ++ ")")
        return .mounted
      | .error failure => do
        .say (failureLevel failure) ("Continuing without mount: " ++ failure.message)
        return .tolerated failure : Steps MountOutcome) := by
  cases r with
  | ok _ => exact (Quiet.say _ _).bind fun _ => .pure _
  | error failure => exact (Quiet.say _ _).bind fun _ => .pure _

/-- **A mount agrees with itself**, up to its outcome. -/
theorem agree_mount (mountPoint : String) (location : Location) :
    Agree b m₁ m₂ (fun _ _ => True) (mount mountPoint location) (mount mountPoint location) := by
  have hdevice : Agree b m₁ m₂ (fun _ _ => True)
      (mountDevice location.device mountPoint location.fsType.mountOptions)
      (mountDevice location.device mountPoint location.fsType.mountOptions) :=
    (agree_attemptMount _ _ _).bind fun a a' _ =>
      (quiet_afterAttempt m₁ mountPoint a).agree (quiet_afterAttempt m₂ mountPoint a')
  exact hdevice.bind fun r r' _ =>
    (quiet_report m₁ mountPoint location r).agree (quiet_report m₂ mountPoint location r')

/-! ## Parts that may give the run up -/

variable (b m₁ m₂) in
/-- The same for parts that may give the run up. -/
def AgreeM (R : α → β → Prop) (x : RunM α) (y : RunM β) : Prop :=
  Agree b m₁ m₂ (Alike R) x.run y.run

theorem AgreeM.pure {R : α → β → Prop} {a : α} {a' : β} (h : R a a') :
    AgreeM b m₁ m₂ R (pure a) (pure a') :=
  Agree.pure (.ok h)

theorem AgreeM.bind {R : α → β → Prop} {S : γ → δ → Prop} {x : RunM α} {y : RunM β}
    {f : α → RunM γ} {g : β → RunM δ} (h : AgreeM b m₁ m₂ R x y)
    (h' : ∀ a a', R a a' → AgreeM b m₁ m₂ S (f a) (g a')) :
    AgreeM b m₁ m₂ S (x >>= f) (y >>= g) := by
  refine Agree.bind h fun r r' halike => ?_
  cases halike with
  | ok hR => exact h' _ _ hR
  | error e => exact Agree.pure (.error e)

/-- A part that agrees with itself, and what goes on from its one result. -/
theorem AgreeM.bind_eq {S : γ → δ → Prop} {x : RunM α} {f : α → RunM γ} {g : α → RunM δ}
    (h : AgreeM b m₁ m₂ Eq x x) (h' : ∀ a, AgreeM b m₁ m₂ S (f a) (g a)) :
    AgreeM b m₁ m₂ S (x >>= f) (x >>= g) :=
  h.bind fun a _ heq => heq ▸ h' a

theorem AgreeM.say (level : Log.Level) (message : String) :
    AgreeM b m₁ m₂ Eq (say level message) (say level message) :=
  fun _ _ hrest hasked => ⟨.ok (.ok rfl), hrest, hasked⟩

theorem Agree.agreeM {x : RunM α} (h : Agree b m₁ m₂ Eq x.run x.run) : AgreeM b m₁ m₂ Eq x x :=
  h.mono fun r _ heq => heq ▸ Alike.refl r

theorem agree_makeMountPoint (path : String) :
    AgreeM b m₁ m₂ Eq (makeMountPoint path) (makeMountPoint path) := by
  have hquestion : Agree b m₁ m₂ Eq (.question (Question.makeMountPoint path))
      (.question (Question.makeMountPoint path)) := agree_question rfl
  refine Agree.agreeM ?_
  show Agree b m₁ m₂ Eq (_ <$> Procedure.question (Question.makeMountPoint path)) _
  rw [← bind_pure_comp]
  exact hquestion.bind fun r r' heq => .pure (congrArg _ heq)

theorem agree_findAmong (ls : List Label) : AgreeM b m₁ m₂ Eq (findAmong ls) (findAmong ls) := by
  induction ls with
  | nil => exact (AgreeM.say _ _).bind_eq fun _ => .pure rfl
  | cons l ls ih =>
      rw [findAmong]
      refine (AgreeM.say _ _).bind_eq fun _ => ?_
      refine (Agree.agreeM (agree_question (q := .hasLabel l) rfl)).bind_eq fun present => ?_
      cases present with
      | true => exact (AgreeM.say _ _).bind_eq fun _ => .pure rfl
      | false => exact ih

theorem agree_describe (l : Label) : AgreeM b m₁ m₂ Eq (describe l) (describe l) := by
  rw [describe]
  refine (Agree.agreeM (agree_question (q := .deviceFor l) rfl)).bind_eq fun device => ?_
  refine (Agree.agreeM (agree_question (q := .filesystemType l) rfl)).bind_eq fun fsType => ?_
  exact (AgreeM.say _ _).bind_eq fun _ => .pure rfl

/-! ## The whole run -/

/-- The same drive was found, or none. -/
inductive SameDrive : Detection → Detection → Prop
  | notFound : SameDrive .notFound .notFound
  | found (location : Location) (outcome outcome' : MountOutcome) :
      SameDrive (.found location outcome) (.found location outcome')

/-- **Finding and mounting the drive agrees with itself**, up to the outcome of the mount. -/
theorem agree_locate (mountPoint : String) :
    AgreeM b m₁ m₂ SameDrive (locate mountPoint) (locate mountPoint) := by
  rw [locate]
  refine (agree_findAmong Label.all).bind_eq fun l? => ?_
  cases l? with
  | none => exact .pure .notFound
  | some l =>
      refine (agree_makeMountPoint mountPoint).bind_eq fun _ => ?_
      refine (agree_describe l).bind_eq fun location => ?_
      -- from here on the two runs know different outcomes of one mount
      have hmount : AgreeM b m₁ m₂ (fun _ _ => True)
          (ExceptT.lift (mount mountPoint location)) (ExceptT.lift (mount mountPoint location)) := by
        show Agree b m₁ m₂ _ (_ <$> mount mountPoint location) (_ <$> mount mountPoint location)
        rw [← bind_pure_comp]
        exact (agree_mount mountPoint location).bind fun _ _ _ => .pure (.ok trivial)
      exact hmount.bind fun outcome outcome' _ => .pure (.found location outcome outcome')

/-- The plan for a drive does not look at the outcome of the mount. -/
theorem SameDrive.plan_eq {d d' : Detection} (h : SameDrive d d') (variant : Variant)
    (downstream : Downstream) (forwarded : List String) :
    Handoff.plan variant d downstream forwarded = Handoff.plan variant d' downstream forwarded := by
  cases h with
  | notFound => rfl
  | found location outcome outcome' => exact Handoff.plan_of_found variant downstream forwarded

theorem agree_planVariant (variant : Variant) (c : Config) (forwarded : List String) :
    AgreeM b m₁ m₂ Eq (planVariant variant c forwarded) (planVariant variant c forwarded) := by
  rw [planVariant]
  refine (AgreeM.say _ _).bind_eq fun _ => ?_
  refine (agree_locate c.mountPoint).bind fun d d' hd => ?_
  have hplan := hd.plan_eq variant c.downstream forwarded
  -- whether there is a drive decides what is reported, and both runs know it alike
  cases hd with
  | notFound => exact (AgreeM.say _ _).bind_eq fun _ => .pure rfl
  | found location outcome outcome' => exact .pure hplan

theorem agree_execute (handoff : Handoff) :
    AgreeM b m₁ m₂ Eq (execute handoff) (execute handoff) := by
  cases handoff with
  | skip => exact (AgreeM.say _ _).bind_eq fun _ => .pure rfl
  | delegate i =>
      rw [execute]
      exact (AgreeM.say _ _).bind_eq fun _ => Agree.agreeM (agree_question (q := .launch i) rfl)

theorem agree_runVariant (variant : Variant) (c : Config) (forwarded : List String) :
    AgreeM b m₁ m₂ Eq (runVariant variant c forwarded) (runVariant variant c forwarded) := by
  rw [runVariant]
  refine (AgreeM.say _ _).bind_eq fun _ => ?_
  exact (agree_planVariant variant c forwarded).bind_eq agree_execute

end

/-- **The mount never influences the hand-off.**  Whatever is around a run and whatever two mounters
answer, in whatever states they are: the run has the same result with both, leaves the same behind, and
asks the same questions in the same order: the same probes, the same request to mount and the same tools
to be started. -/
theorem runVariant_mounters {μ₁ μ₂ : Type} (b : Surroundings ε ρ) (m₁ : Mounter μ₁) (m₂ : Mounter μ₂)
    (rest : ρ) (s₁ : μ₁) (s₂ : μ₂) (variant : Variant) (c : Config) (forwarded : List String) :
    (b.perform m₁ ⟨rest, s₁, []⟩ (runVariant variant c forwarded).run).1 =
        (b.perform m₂ ⟨rest, s₂, []⟩ (runVariant variant c forwarded).run).1 ∧
      (b.perform m₁ ⟨rest, s₁, []⟩ (runVariant variant c forwarded).run).2.rest =
        (b.perform m₂ ⟨rest, s₂, []⟩ (runVariant variant c forwarded).run).2.rest ∧
      (b.perform m₁ ⟨rest, s₁, []⟩ (runVariant variant c forwarded).run).2.asked =
        (b.perform m₂ ⟨rest, s₂, []⟩ (runVariant variant c forwarded).run).2.asked := by
  have hagree : AgreeM b m₁ m₂ Eq (runVariant variant c forwarded) (runVariant variant c forwarded) :=
    agree_runVariant variant c forwarded
  obtain ⟨halike, hrest, hasked⟩ := hagree ⟨rest, s₁, []⟩ ⟨rest, s₂, []⟩ rfl rfl
  exact ⟨(halike.mono fun _ _ h => h.eq).eq, hrest, hasked⟩

end ConfigDrive.Run
