/-
# ConfigDrive.Proofs.Run.ExitStatus — the exit status tells how the tool ended.

A run has two parts: planning, which starts no tool, and the hand-off, which starts at most one
(`runVariant_parts`).  So a tool that was started is the last program of the run, and in a general run
the result is its exit status: its code, or 128 more than the signal that ended it.  An error means that
no tool was started.  Early in the boot there is one way to succeed without a tool: the probe utility exits
with 2 for both labels.  Whatever else a search that finds no drive comes to is an error
(`exit_status_honest`).
-/
import ConfigDrive.Proofs.Run.Moments
import ConfigDrive.Proofs.Run.Trace

namespace ConfigDrive

/-! ## Exit statuses -/

namespace WaitStatus

/-- The process exited with this code, of which the system keeps a byte. -/
def Exits (s : WaitStatus) (k : Nat) : Prop :=
  ∃ code, s = .exited code ∧ code % 0x100 = k

theorem exitCode_of_exits {s : WaitStatus} {k : Nat} (h : s.Exits k) : s.exitCode = k := by
  obtain ⟨code, rfl, rfl⟩ := h
  rfl

theorem exitCode_killed {signal : Nat} (h : signal ≤ 127) :
    (killed signal).exitCode = 128 + signal := by
  rw [exitCode]
  omega

/-- Only a process that exited with code zero has the exit status zero. -/
theorem exitCode_eq_zero_iff (s : WaitStatus) : s.exitCode = 0 ↔ s.Exits 0 := by
  constructor
  · intro h
    cases s with
    | exited code => exact ⟨code, rfl, h⟩
    | killed signal =>
        rw [exitCode] at h
        omega
    | other => cases h
  · exact exitCode_of_exits

end WaitStatus

namespace Run

open Host
open ConfigDrive.Drive (Label)
open ConfigDrive.Utilities (ofConfig)

/-! ## Tools among the programs -/

/-- None of the programs is a tool. -/
def NoTool (starts : List (Question × Started)) : Prop :=
  ∀ b ∈ starts, b.1.isLaunch = false

/-- A tool was started exactly once, and as the last program. -/
def ToolIsLast (tool : String) (starts : List (Question × Started)) (s : Started) : Prop :=
  ∃ before i, starts = before ++ [(.launch i, s)] ∧ i.program = tool ∧ NoTool before

section

variable {tool : String} {starts : List (Question × Started)} {s s' : Started}

theorem ToolIsLast.not_noTool (h : ToolIsLast tool starts s) : ¬ NoTool starts := by
  obtain ⟨before, i, rfl, -⟩ := h
  intro hno
  exact Bool.noConfusion (hno (.launch i, s) (List.mem_append_right _ List.mem_cons_self))

theorem ToolIsLast.unique (h : ToolIsLast tool starts s) (h' : ToolIsLast tool starts s') :
    s = s' := by
  obtain ⟨before, i, rfl, -⟩ := h
  obtain ⟨before', i', heq, -⟩ := h'
  have hlast := (List.append_inj' heq rfl).2
  cases hlast
  rfl

end

/-! ## The two parts of a run -/

section

variable {c : Config} {variant : Variant} {forwarded : List String} {t : FileTree}

theorem planVariant_quiet :
    Orderly (fun q => q.isLaunch = false)
      (fun h => ∃ detection, h = Handoff.plan variant detection c.downstream forwarded)
      (planVariant variant c forwarded).run :=
  orderly_planVariant (fun _ h => h) variant c forwarded

theorem noTool_planVariant :
    NoTool ((ofConfig c).starts (planVariant variant c forwarded).run t) := by
  intro b hb
  rw [Utilities.starts, List.mem_flatMap] at hb
  obtain ⟨m, hm, hb⟩ := hb
  obtain ⟨_, -, rfl⟩ := List.mem_map.mp hb
  exact planVariant_quiet.asksOnly.of_mem_moments m hm

/-- Planning ends with an error or with a plan. -/
theorem exists_plan :
    (∃ e, ((ofConfig c).account (planVariant variant c forwarded).run t).result = .ok (.error e)) ∨
      ∃ detection, ((ofConfig c).account (planVariant variant c forwarded).run t).result =
        .ok (.ok (Handoff.plan variant detection c.downstream forwarded)) := by
  have hquiet := @planVariant_quiet c variant forwarded
  obtain ⟨r, hr⟩ := hquiet.asksOnly.exists_result
    (fun q t hq => (ofConfig c).reply_ok_of_not_launch hq t) t
  cases r with
  | error e => exact .inl ⟨e, hr⟩
  | ok handoff =>
      obtain ⟨detection, rfl⟩ := hquiet.of_result hr
      exact .inr ⟨detection, hr⟩

theorem execute_delegate (u : Utilities) (i : Invocation) (t : FileTree) :
    u.starts (execute (.delegate i)).run t = (u.ending t i).started.map (.launch i, ·) ∧
      (u.account (execute (.delegate i)).run t).result = (u.ending t i).result := by
  have hcourse := u.course_launch t i
  have hreply : u.reply (.launch i) t = ((u.ending t i).result, t) := by
    show ((course (u.launch i) t).result, (course (u.launch i) t).tree) = _
    rw [hcourse]
  have haccount : u.account (launch i).run t =
      ⟨[.asked t (.launch i)], (u.ending t i).result, t⟩ := by
    refine (Procedure.account_question u.reply (.launch i) t).trans ?_
    rw [hreply]
  rw [execute, Utilities.starts_say_bind, Utilities.account_say_bind, haccount, Utilities.starts,
    haccount]
  have hstarted : u.startedAt t (.launch i) = (u.ending t i).started := by
    show (course (u.launch i) t).started = _
    rw [hcourse]
  rw [← hstarted]
  exact ⟨List.append_nil _, rfl⟩

/-- **The two parts of a run**: planning starts no tool, and the hand-off starts at most one. -/
theorem runVariant_parts (variant : Variant) (c : Config) (forwarded : List String) (t : FileTree) :
    (NoTool ((ofConfig c).starts (runVariant variant c forwarded).run t) ∧
        ((∃ e, ((ofConfig c).account (runVariant variant c forwarded).run t).result =
            .ok (.error e)) ∨
          variant = .early ∧
            ((ofConfig c).account (runVariant variant c forwarded).run t).result = .ok (.ok 0))) ∨
      ∃ before t' i, NoTool before ∧ i.mode = Handoff.mode variant ∧
        i.program = c.downstream.program ∧
        (ofConfig c).starts (runVariant variant c forwarded).run t =
          before ++ ((ofConfig c).ending t' i).started.map (.launch i, ·) ∧
        ((ofConfig c).account (runVariant variant c forwarded).run t).result =
          ((ofConfig c).ending t' i).result := by
  have hquiet : NoTool ((ofConfig c).starts (planVariant variant c forwarded).run t) :=
    noTool_planVariant
  rw [runVariant, Utilities.starts_say_bind, Utilities.account_say_bind]
  rcases exists_plan with ⟨e, hplan⟩ | ⟨detection, hplan⟩
  · rw [Utilities.starts_bind_error hplan, Utilities.account_bind_error hplan]
    exact .inl ⟨hquiet, .inl ⟨e, rfl⟩⟩
  · rw [Utilities.starts_bind_ok hplan, Utilities.account_bind_ok hplan, Handoff.plan]
    split
    · next hskip =>
        refine .inl ⟨?_, .inr ⟨by simpa using (Bool.and_eq_true_iff.mp hskip).1, rfl⟩⟩
        have hnone : ∀ t', (ofConfig c).starts (execute .skip).run t' = [] := fun _ => rfl
        rw [hnone, List.append_nil]
        exact hquiet
    · next hgo =>
        dsimp only
        rw [(execute_delegate _ _ _).1, (execute_delegate _ _ _).2]
        exact .inr ⟨_, _, _, hquiet, rfl, rfl, rfl, rfl⟩

/-- **A general run** starts no tool and ends with an error, or ends with the exit status of its tool. -/
theorem general_ends (c : Config) (forwarded : List String) (t : FileTree) :
    (NoTool ((ofConfig c).starts (runVariant .general c forwarded).run t) ∧
        ∃ e, ((ofConfig c).account (runVariant .general c forwarded).run t).result =
          .ok (.error e)) ∨
      ∃ s, ToolIsLast c.downstream.program
          ((ofConfig c).starts (runVariant .general c forwarded).run t) s ∧
        ((ofConfig c).account (runVariant .general c forwarded).run t).result =
          .ok (.ok s.image.completion.status.exitCode) := by
  rcases runVariant_parts .general c forwarded t with
    ⟨hno, herror | ⟨hearly, -⟩⟩ | ⟨before, t', i, hbefore, hmode, htool, hstarts, hresult⟩
  · exact .inl ⟨hno, herror⟩
  · cases hearly
  · have hspawn : i.mode = .spawn := hmode
    rw [hstarts, hresult, Utilities.ending, hspawn]
    cases attempt t' (ofConfig c).searchPath (LaunchMode.spawn == .replace) i.program i.args with
    | unresolved => exact .inl ⟨by simpa using hbefore, _, rfl⟩
    | refused e => exact .inl ⟨by simpa using hbefore, _, rfl⟩
    | ran program => exact .inr ⟨program, ⟨before, i, rfl, htool, hbefore⟩, rfl⟩

/-- With a tool, a general run answers with the exit status of the tool. -/
theorem general_with_tool {s : Started}
    (h : ToolIsLast c.downstream.program
      ((ofConfig c).starts (runVariant .general c forwarded).run t) s) :
    ((ofConfig c).account (runVariant .general c forwarded).run t).result =
      .ok (.ok s.image.completion.status.exitCode) := by
  rcases general_ends c forwarded t with ⟨hno, -⟩ | ⟨s', hs', hresult⟩
  · exact absurd hno h.not_noTool
  · rw [h.unique hs']
    exact hresult

/-- Without a tool, a general run fails. -/
theorem general_without_tool
    (h : NoTool ((ofConfig c).starts (runVariant .general c forwarded).run t)) :
    ∃ e, ((ofConfig c).account (runVariant .general c forwarded).run t).result = .ok (.error e) := by
  rcases general_ends c forwarded t with ⟨-, herror⟩ | ⟨s, hs, -⟩
  · exact herror
  · exact absurd h hs.not_noTool

/-- Early in the boot the tool takes the place of the run: it is never a child that is waited for. -/
theorem mode_of_mem_starts {variant : Variant} {i : Invocation} {s : Started}
    (h : (Question.launch i, s) ∈ (ofConfig c).starts (runVariant variant c forwarded).run t) :
    i.mode = Handoff.mode variant := by
  rcases runVariant_parts variant c forwarded t with
    ⟨hno, -⟩ | ⟨before, t', i', hbefore, hmode, -, hstarts, -⟩
  · exact Bool.noConfusion (hno _ h)
  · rw [hstarts, List.mem_append] at h
    rcases h with h | h
    · exact Bool.noConfusion (hbefore _ h)
    · obtain ⟨_, -, heq⟩ := List.mem_map.mp h
      cases heq
      exact hmode

/-- **An early run** starts no tool and answers zero or with an error, or its tool takes its place. -/
theorem early_ends (c : Config) (forwarded : List String) (t : FileTree) :
    (NoTool ((ofConfig c).starts (runVariant .early c forwarded).run t) ∧
        (((ofConfig c).account (runVariant .early c forwarded).run t).result = .ok (.ok 0) ∨
          ∃ e, ((ofConfig c).account (runVariant .early c forwarded).run t).result =
            .ok (.error e))) ∨
      ∃ s, ToolIsLast c.downstream.program
          ((ofConfig c).starts (runVariant .early c forwarded).run t) s ∧
        ((ofConfig c).account (runVariant .early c forwarded).run t).result =
          .error s.image.completion := by
  rcases runVariant_parts .early c forwarded t with
    ⟨hno, herror | ⟨-, hzero⟩⟩ | ⟨before, t', i, hbefore, hmode, htool, hstarts, hresult⟩
  · exact .inl ⟨hno, .inr herror⟩
  · exact .inl ⟨hno, .inl hzero⟩
  · have hreplace : i.mode = .replace := hmode
    rw [hstarts, hresult, Utilities.ending, hreplace]
    cases attempt t' (ofConfig c).searchPath (LaunchMode.replace == .replace) i.program i.args with
    | unresolved => exact .inl ⟨by simpa using hbefore, .inr ⟨_, rfl⟩⟩
    | refused e => exact .inl ⟨by simpa using hbefore, .inr ⟨_, rfl⟩⟩
    | ran program => exact .inr ⟨program, ⟨before, i, rfl, htool, hbefore⟩, rfl⟩

/-- With a tool, an early run leaves what the tool leaves. -/
theorem early_with_tool {s : Started}
    (h : ToolIsLast c.downstream.program
      ((ofConfig c).starts (runVariant .early c forwarded).run t) s) :
    ((ofConfig c).account (runVariant .early c forwarded).run t).result =
      .error s.image.completion := by
  rcases early_ends c forwarded t with ⟨hno, -⟩ | ⟨s', hs', hresult⟩
  · exact absurd hno h.not_noTool
  · rw [h.unique hs']
    exact hresult

/-- Without a tool, an early run answers zero or with an error. -/
theorem early_without_tool
    (h : NoTool ((ofConfig c).starts (runVariant .early c forwarded).run t)) :
    ((ofConfig c).account (runVariant .early c forwarded).run t).result = .ok (.ok 0) ∨
      ∃ e, ((ofConfig c).account (runVariant .early c forwarded).run t).result = .ok (.error e) := by
  rcases early_ends c forwarded t with ⟨-, hends⟩ | ⟨s, hs, -⟩
  · exact hends
  · exact absurd h hs.not_noTool

/-- A run that is given up has started no tool. -/
theorem noTool_of_error {variant : Variant} {e : RunError}
    (h : ((ofConfig c).account (runVariant variant c forwarded).run t).result = .ok (.error e)) :
    NoTool ((ofConfig c).starts (runVariant variant c forwarded).run t) := by
  cases variant with
  | early =>
      rcases early_ends c forwarded t with ⟨hno, -⟩ | ⟨s, -, hresult⟩
      · exact hno
      · cases h.symm.trans hresult
  | general =>
      rcases general_ends c forwarded t with ⟨hno, -⟩ | ⟨s, -, hresult⟩
      · exact hno
      · cases h.symm.trans hresult

/-! ## The search and the result -/

/-- What a run answers is the result of its trace. -/
theorem result_of_trace {variant : Variant} {s : List Started}
    {r : Except Completion (Except RunError Nat)} {t' : FileTree}
    (h : Trace c t variant forwarded s r t') :
    ((ofConfig c).account (runVariant variant c forwarded).run t).result = r := by
  have hcourse := h.course_eq
  rw [Utilities.course_perform] at hcourse
  exact (Course.mk.inj hcourse).2.1

/-- The probe utility exits with a code when it is asked for a label. -/
def LabelExits (c : Config) (t : FileTree) (l : Label) (code : Nat) : Prop :=
  ∃ s, Exited c t (labelQuery l) code s

theorem labelExits_iff {l : Label} {code : Nat} :
    LabelExits c t l code ↔
      (query c t (labelQuery l)).started.map (·.image.completion.status) = [.exited code] := by
  constructor
  · rintro ⟨s, hran, hstatus⟩
    rw [hran]
    exact congrArg (fun status => [status]) hstatus
  · intro h
    obtain ⟨s, hran, hstatus⟩ := Attempt.exists_ran h
    exact ⟨s, hran, hstatus⟩

instance (l : Label) (code : Nat) : Decidable (LabelExits c t l code) :=
  decidable_of_iff _ labelExits_iff.symm

/-- A search that ends with 2 for both labels has found none. -/
theorem search_absent (h₁ : LabelExits c t .lower 2) (h₂ : LabelExits c t .upper 2) :
    ∃ s, Search c t s (.ok none) := by
  obtain ⟨s₁, h₁⟩ := h₁
  obtain ⟨s₂, h₂⟩ := h₂
  exact ⟨_, .absent (.absent h₁) (.absent h₂)⟩

/-- Any other end of a query than with 0 or 2 is an error. -/
theorem exists_labelAsked_error {l : Label} (h₀ : ¬ LabelExits c t l 0) (h₂ : ¬ LabelExits c t l 2) :
    ∃ s e, LabelAsked c t l s (.error e) := by
  obtain ⟨s, r, h⟩ := exists_labelAsked c t l
  cases h with
  | present h => exact absurd ⟨_, h⟩ h₀
  | absent h => exact absurd ⟨_, h⟩ h₂
  | fails h => exact ⟨_, _, .fails h⟩

/-- A trace of an early run that succeeds is the one without a drive. -/
theorem labelExits_of_trace {s : List Started} {t' : FileTree}
    (h : Trace c t .early forwarded s (.ok (.ok 0)) t') :
    LabelExits c t .lower 2 ∧ LabelExits c t .upper 2 := by
  generalize hr : (.ok (.ok 0) : Except Completion (Except RunError Nat)) = r at h
  cases h with
  | skipped hs hv =>
      cases hs with
      | absent h₁ h₂ =>
          cases h₁ with
          | absent h₁ =>
              cases h₂ with
              | absent h₂ => exact ⟨⟨_, h₁⟩, ⟨_, h₂⟩⟩
  | withoutDrive hs hv => cases hv
  | withDrive hs hm hd ht =>
      -- a tool that replaces the run leaves no result, and one that does not start leaves an error
      rw [Utilities.ending] at hr
      have hreplace : (lastTool c .early true forwarded).mode = .replace := rfl
      rw [hreplace] at hr
      split at hr <;> cases hr
  | _ => cases hr

/-- **An early run answers zero exactly if the probe utility exits with 2 for both labels.** -/
theorem early_ok_iff (c : Config) (forwarded : List String) (t : FileTree) :
    ((ofConfig c).account (runVariant .early c forwarded).run t).result = .ok (.ok 0) ↔
      LabelExits c t .lower 2 ∧ LabelExits c t .upper 2 := by
  constructor
  · intro hzero
    obtain ⟨s, r, t', htrace⟩ := exists_trace c t .early forwarded
    rw [result_of_trace htrace] at hzero
    rw [hzero] at htrace
    exact labelExits_of_trace htrace
  · rintro ⟨hlower, hupper⟩
    obtain ⟨s, hs⟩ := search_absent hlower hupper
    exact result_of_trace (.skipped hs rfl)

/-- **A search that fails is an error**: one that does not begin with 0 or 2, or goes on from 2 to neither
of them. -/
theorem error_of_search (variant : Variant) (forwarded : List String)
    (h : (¬ LabelExits c t .lower 0 ∧ ¬ LabelExits c t .lower 2) ∨
      (LabelExits c t .lower 2 ∧ ¬ LabelExits c t .upper 0 ∧ ¬ LabelExits c t .upper 2)) :
    ∃ e, ((ofConfig c).account (runVariant variant c forwarded).run t).result = .ok (.error e) := by
  rcases h with ⟨h₀, h₂⟩ | ⟨⟨_, hlower⟩, h₀, h₂⟩
  · obtain ⟨s, e, h⟩ := exists_labelAsked_error h₀ h₂
    exact ⟨e, result_of_trace (.searchFails (.lowerFails h))⟩
  · obtain ⟨s, e, h⟩ := exists_labelAsked_error h₀ h₂
    exact ⟨e, result_of_trace (.searchFails (.upperFails (.absent hlower) h))⟩

end

/-- **The exit status is honest.**  Here `general` and `early` stand for what a run answers, and the
programs of a run are those that the machine has started for it, each with the question that needed it.

In a general run a tool that was started was started once and last.  The run then answers with the tool's
exit code, or with 128 more than the signal that ended it, and never with an error; it answers with an
error if no tool was started.  So the answer is zero exactly if the tool exited with zero.

An early run answers zero, without a tool, exactly if the probe utility was started for both labels and
exited with 2 both times.  Without a tool there is no other answer but an error, and a tool leaves its own
end.  On either occasion a run is given up, and starts no tool, if a label that is asked for gets another
answer than 0 or 2, by whatever end of the probe utility or because it was not started. -/
theorem exit_status_honest (c : Config) (m : Machine) (forwarded : List String) :
    let programs := fun variant => (ofConfig c).starts (runVariant variant c forwarded).run m.tree
    let run := fun variant => m.perform ((ofConfig c).perform (runVariant variant c forwarded))
    let tool := c.downstream.program
    let exits := LabelExits c m.tree
    (∀ variant, (run variant).2.calls =
        m.calls ++ ((programs variant).map Prod.snd).filterMap Started.call?) ∧
      ((run .general).1 = .ok (.ok 0) ↔
        ∃ s, ToolIsLast tool (programs .general) s ∧ s.image.completion.status.Exits 0) ∧
      (∀ s k, ToolIsLast tool (programs .general) s → s.image.completion.status.Exits k →
        (run .general).1 = .ok (.ok k)) ∧
      (∀ s signal, ToolIsLast tool (programs .general) s →
        s.image.completion.status = .killed signal → signal ≤ 127 →
        (run .general).1 = .ok (.ok (128 + signal))) ∧
      (∀ variant, NoTool (programs variant) ∨ ∃ s, ToolIsLast tool (programs variant) s) ∧
      (NoTool (programs .general) → ∃ e, (run .general).1 = .ok (.error e)) ∧
      (∀ variant i s, (.launch i, s) ∈ programs variant → i.mode = .spawn →
        ∃ k, (run variant).1 = .ok (.ok k)) ∧
      ((run .early).1 = .ok (.ok 0) ∧ NoTool (programs .early) ↔ exits .lower 2 ∧ exits .upper 2) ∧
      (NoTool (programs .early) →
        (run .early).1 = .ok (.ok 0) ∨ ∃ e, (run .early).1 = .ok (.error e)) ∧
      (∀ s, ToolIsLast tool (programs .early) s → (run .early).1 = .error s.image.completion) ∧
      ∀ variant, (¬ exits .lower 0 ∧ ¬ exits .lower 2) ∨
          (exits .lower 2 ∧ ¬ exits .upper 0 ∧ ¬ exits .upper 2) →
        NoTool (programs variant) ∧ ∃ e, (run variant).1 = .ok (.error e) := by
  intro programs run tool exits
  have hrun : ∀ variant, (run variant).1 =
      ((ofConfig c).account (runVariant variant c forwarded).run m.tree).result := by
    intro variant
    rw [(m.perform_eq_course _).1, Utilities.course_perform]
  have hanswer : ∀ s, ToolIsLast tool (programs .general) s →
      (run .general).1 = .ok (.ok s.image.completion.status.exitCode) := by
    intro s hs
    rw [hrun]
    exact general_with_tool hs
  have hwithout : NoTool (programs .general) → ∃ e, (run .general).1 = .ok (.error e) := by
    intro hno
    rw [hrun]
    exact general_without_tool hno
  have htool : ∀ variant, NoTool (programs variant) ∨ ∃ s, ToolIsLast tool (programs variant) s := by
    intro variant
    cases variant with
    | early => exact (early_ends c forwarded m.tree).imp And.left fun ⟨s, hs, _⟩ => ⟨s, hs⟩
    | general => exact (general_ends c forwarded m.tree).imp And.left fun ⟨s, hs, _⟩ => ⟨s, hs⟩
  refine ⟨?calls, ⟨?zero, ?exited⟩, ?code, ?signal, htool, hwithout, ?spawned, ?absent,
    ?withoutTool, ?withTool, ?failed⟩
  case calls =>
    intro variant
    rw [Utilities.map_snd_starts]
    exact (m.perform_eq_course _).2.2
  case zero =>
    intro hzero
    rcases htool .general with hno | ⟨s, hs⟩
    · obtain ⟨e, herror⟩ := hwithout hno
      cases hzero.symm.trans herror
    · refine ⟨s, hs, (WaitStatus.exitCode_eq_zero_iff _).mp ?_⟩
      have hboth := (hanswer s hs).symm.trans hzero
      injection hboth with hboth
      injection hboth
  case exited =>
    rintro ⟨s, hs, hexits⟩
    rw [hanswer s hs, WaitStatus.exitCode_of_exits hexits]
  case code =>
    intro s k hs hexits
    rw [hanswer s hs, WaitStatus.exitCode_of_exits hexits]
  case signal =>
    intro s signal hs hkilled hsignal
    rw [hanswer s hs, hkilled, WaitStatus.exitCode_killed hsignal]
  case spawned =>
    intro variant i s hmem hspawn
    have hmode := (mode_of_mem_starts hmem).symm.trans hspawn
    cases variant with
    | early => cases hmode
    | general =>
        rcases htool .general with hno | ⟨s', hs'⟩
        · exact Bool.noConfusion (hno _ hmem)
        · exact ⟨_, hanswer s' hs'⟩
  case absent =>
    rw [hrun, ← early_ok_iff c forwarded]
    refine ⟨And.left, fun hzero => ⟨hzero, ?_⟩⟩
    -- a tool would have taken the place of the run
    rcases early_ends c forwarded m.tree with ⟨hno, -⟩ | ⟨s, -, hresult⟩
    · exact hno
    · cases hzero.symm.trans hresult
  case withoutTool =>
    intro hno
    rw [hrun]
    exact early_without_tool hno
  case withTool =>
    intro s hs
    rw [hrun]
    exact early_with_tool hs
  case failed =>
    intro variant hsearch
    obtain ⟨e, herror⟩ := error_of_search variant forwarded hsearch
    exact ⟨noTool_of_error herror, e, (hrun variant).trans herror⟩

/-! ## A probe that fails, a tool that is killed, and no drive -/

/-- The programs of a run whose last one is a tool, told by how they ended. -/
theorem exists_toolIsLast {starts : List (Question × Started)} {before : List (Question × WaitStatus)}
    {i : Invocation} {status : WaitStatus}
    (h : starts.map (fun b => (b.1, b.2.image.completion.status)) = before ++ [(.launch i, status)])
    (hbefore : ∀ b ∈ before, b.1.isLaunch = false) :
    ∃ s, ToolIsLast i.program starts s ∧ s.image.completion.status = status := by
  obtain ⟨front, last, rfl, hfront, hlast⟩ := List.map_eq_append_iff.mp h
  obtain ⟨⟨q, s⟩, rfl, heq⟩ := List.map_eq_singleton_iff.mp hlast
  obtain ⟨rfl, hstatus⟩ := Prod.mk.inj heq
  refine ⟨s, ⟨front, i, rfl, rfl, fun b hb => ?_⟩, hstatus⟩
  exact hbefore _ (hfront ▸ List.mem_map_of_mem hb)

/-- A tool that is killed. -/
def killedTool : StandIn :=
  ⟨[], { Shell.quiet 0 with status := .killed 9 }⟩

set_option maxRecDepth 10000 in
/-- A probe utility that exits with 4 is an error on both occasions.  A tool that is killed by signal 9
gives the status 137.  Without a drive an early run answers zero. -/
theorem exit_statuses_told :
    (∀ variant, ∃ e, (({ tree := runTree ⟨[], Shell.quiet 4⟩ killedTool } : Machine).perform
        ((ofConfig runSettings).perform (runVariant variant runSettings []))).1 = .ok (.error e)) ∧
      (({ tree := runTree capitalsProbe killedTool } : Machine).perform
        ((ofConfig runSettings).perform (runVariant .general runSettings []))).1 = .ok (.ok 137) ∧
      (({ tree := runTree ⟨[], Shell.quiet 2⟩ killedTool } : Machine).perform
        ((ofConfig runSettings).perform (runVariant .early runSettings []))).1 = .ok (.ok 0) := by
  refine ⟨fun variant => ?failing, ?killed, ?none⟩
  case failing =>
    obtain ⟨-, -, -, -, -, -, -, -, -, -, hfailed⟩ :=
      exit_status_honest runSettings { tree := runTree ⟨[], Shell.quiet 4⟩ killedTool } []
    exact (hfailed variant (.inl (by decide +kernel))).2
  case killed =>
    obtain ⟨-, -, -, hsignal, -⟩ :=
      exit_status_honest runSettings { tree := runTree capitalsProbe killedTool } []
    have hprograms : ((ofConfig runSettings).starts (runVariant .general runSettings []).run
        (runTree capitalsProbe killedTool)).map (fun b => (b.1, b.2.image.completion.status)) =
        [(.hasLabel .lower, .exited 2), (.hasLabel .upper, .exited 0), (.deviceFor .upper, .exited 0),
          (.filesystemType .upper, .exited 0),
          (.attemptMount "/dev/sr0" "mnt" ⟨some "vfat", "umask=0077"⟩, .exited 0)] ++
          [(.launch ⟨"glean", ["--ssh", "--hostname", "--use-nm", "-x"], .spawn⟩, .killed 9)] := by
      decide +kernel
    obtain ⟨s, hlast, hstatus⟩ := exists_toolIsLast hprograms (by decide)
    exact hsignal s 9 hlast hstatus (by decide)
  case none =>
    obtain ⟨-, -, -, -, -, -, -, habsent, -⟩ :=
      exit_status_honest runSettings { tree := runTree ⟨[], Shell.quiet 2⟩ killedTool } []
    exact (habsent.mpr (by decide +kernel)).1

end Run

end ConfigDrive
