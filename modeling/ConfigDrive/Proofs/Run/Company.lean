/-
# ConfigDrive.Proofs.Run.Company — runs that share a host.

Any number of runs with the same settings share a host and take their steps in turns: one of them has a
question answered, then another.  A step is one question, so a run that has failed to mount and has not
yet read the mount table can be overtaken there.  The mount table is the only thing that the runs share
and change; what is told about the drives stays the same, and nothing is unmounted.

`Drives.Answers` says which answers a host may give, with all the freedom that it has: the new mount table
is any that lists the target once, and how the mount utility and the tools end is left open.
`Company.Reachable` are the states that the runs can come to.  `Company.play` lets them take turns in a
given order, with one host that keeps to this (`reachable_play`).
-/
import ConfigDrive.Proofs.Run.Trace
import ConfigDrive.Proofs.Transcript
import Mathlib.Logic.Function.Basic
import Mathlib.Logic.Relation

namespace ConfigDrive.Run

open ConfigDrive.Drive

/-! ## A host that is shared -/

/-- How often a mount table lists a target. -/
def listings (table target : String) : Nat :=
  (MountTable.ofText table).entries.countP fun e => Path.same e.target target

theorem hasTarget_iff {table target : String} :
    (MountTable.ofText table).hasTarget target = true ↔ 0 < listings table target := by
  rw [listings, List.countP_pos_iff, MountTable.hasTarget, List.any_eq_true]

/-- What is told about the drives of a host. -/
structure Drives where
  present : Label → Bool
  device : Label → String
  fsType : Label → FilesystemType

/-- The answer to a step of a run, with the mount table before and after it.  A mount adds the target to
a table that does not list it; on any other it fails, and the table stays as it is.  Every program can be
started, and one that takes the place of the run gives no answer. -/
inductive Drives.Answers (d : Drives) : String → (q : Question) → q.Answer → String → Prop
  | hasLabel {table : String} (l : Label) :
      Answers d table (.hasLabel l) (.ok (d.present l)) table
  | deviceFor {table : String} (l : Label) :
      Answers d table (.deviceFor l) (.ok (d.device l)) table
  | filesystemType {table : String} (l : Label) :
      Answers d table (.filesystemType l) (.ok (d.fsType l)) table
  | makeMountPoint {table : String} (path : String) :
      Answers d table (.makeMountPoint path) (.ok ()) table
  | mounts {table table' : String} (device target : String) (options : MountOptions)
      (hfree : listings table target = 0) (hadded : listings table' target = 1) :
      Answers d table (.attemptMount device target options) .mounted table'
  | mountFails {table : String} (device target : String) (options : MountOptions)
      (hlisted : listings table target ≠ 0) {code : Option Nat} (hcode : code ≠ some 0)
      (stderr : String) :
      Answers d table (.attemptMount device target options) (.exited code stderr) table
  | readMountTable {table : String} :
      Answers d table .readMountTable (.ok (.ofText table)) table
  | launch {table : String} {i : Invocation} (hmode : i.mode = .spawn) (status : Nat) :
      Answers d table (.launch i) (.ok status) table

/-! ## Several runs -/

/-- A run that is asked for: its occasion and the arguments that it forwards. -/
structure Job where
  variant : Variant
  forwarded : List String
  deriving DecidableEq, Repr

/-- The run for a job. -/
def Job.run (c : Config) (j : Job) : Steps (Except RunError Nat) :=
  (runVariant j.variant c j.forwarded).run

/-- The hand-off of a job's run when a drive is present. -/
def Job.handoff (c : Config) (j : Job) : Invocation :=
  lastTool c j.variant true j.forwarded

/-- Runs that share a host: its mount table, and what was answered to each of them so far. -/
structure Company (ι : Type) where
  table : String
  answered : ι → Transcript Question Question.Answer

namespace Company

variable {ι : Type}

/-- No run has begun. -/
def start (table : String) : Company ι :=
  ⟨table, fun _ => []⟩

/-- How far a run has come. -/
def progress (c : Config) (jobs : ι → Job) (s : Company ι) (i : ι) :
    Progress Question Question.Answer (Except RunError Nat) :=
  ((jobs i).run c).follow (s.answered i)

/-- What a run has found and how its mount went, once it is past its mount step. -/
def detection? (c : Config) (s : Company ι) (i : ι) : Option (Except RunError Detection) :=
  ((locate c.mountPoint).run.follow (s.answered i)).result?

/-- A run has come to its hand-off: it is about to start the tool, or has started it. -/
def HandsOff (c : Config) (jobs : ι → Job) (s : Company ι) (i : ι) (tool : Invocation) : Prop :=
  (s.progress c jobs i).question? = some (.launch tool) ∨ ∃ a, ⟨.launch tool, a⟩ ∈ s.answered i

variable [DecidableEq ι]

/-- One run is given an answer, and the mount table is this one then. -/
def answer (s : Company ι) (i : ι) (q : Question) (a : q.Answer) (table : String) : Company ι :=
  ⟨table, Function.update s.answered i (s.answered i ++ [⟨q, a⟩])⟩

theorem answered_self (s : Company ι) (i : ι) (q : Question) (a : q.Answer) (table : String) :
    (s.answer i q a table).answered i = s.answered i ++ [⟨q, a⟩] :=
  Function.update_self ..

theorem answered_of_ne (s : Company ι) {i j : ι} (h : j ≠ i) (q : Question) (a : q.Answer)
    (table : String) : (s.answer i q a table).answered j = s.answered j :=
  Function.update_of_ne h ..

/-- One run takes one step. -/
inductive Step (d : Drives) (c : Config) (jobs : ι → Job) : Company ι → Company ι → Prop
  | mk {s : Company ι} {table' : String} (i : ι) {q : Question} {a : q.Answer}
      (hq : (s.progress c jobs i).question? = some q) (ha : d.Answers s.table q a table') :
      Step d c jobs s (s.answer i q a table')

/-- The runs can come this far. -/
def Reachable (d : Drives) (c : Config) (jobs : ι → Job) (table : String) : Company ι → Prop :=
  Relation.ReflTransGen (Step d c jobs) (start table)

end Company

/-! ## Taking turns -/

/-- The process ends here and another program goes on in its place. -/
def Question.replaces : Question → Bool
  | .launch i => i.mode == .replace
  | _ => false

/-- The answers of one host: a mount leads to the given table, the mount utility fails with the status
that it has for a busy target, and every tool succeeds. -/
def Drives.reply (d : Drives) (mounted : String) (table : String) : (q : Question) → q.Answer × String
  | .hasLabel l => (.ok (d.present l), table)
  | .deviceFor l => (.ok (d.device l), table)
  | .filesystemType l => (.ok (d.fsType l), table)
  | .makeMountPoint _ => (.ok (), table)
  | .attemptMount _ target _ =>
    if listings table target = 0 then (.mounted, mounted)
    else (.exited (some 32) (target ++ " is busy"), table)
  | .readMountTable => (.ok (.ofText table), table)
  | .launch _ => (.ok 0, table)

/-- **There is always an answer**, unless the process ends: a host can mount any target that some table
lists once. -/
theorem Drives.answers_reply (d : Drives) {mounted table : String} {q : Question}
    (hmounted : ∀ device target options, q = .attemptMount device target options →
      listings mounted target = 1) (hq : q.replaces = false) :
    d.Answers table q (d.reply mounted table q).1 (d.reply mounted table q).2 := by
  cases q with
  | hasLabel l => exact .hasLabel l
  | deviceFor l => exact .deviceFor l
  | filesystemType l => exact .filesystemType l
  | makeMountPoint path => exact .makeMountPoint path
  | attemptMount device target options =>
      rw [Drives.reply]
      split
      · next hfree => exact .mounts device target options hfree (hmounted device target options rfl)
      · next hlisted => exact .mountFails device target options hlisted (by decide) _
  | readMountTable => exact .readMountTable
  | launch i =>
      refine .launch ?_ 0
      cases hmode : i.mode with
      | spawn => rfl
      | replace =>
          rw [Question.replaces, hmode] at hq
          cases hq

namespace Company

variable {ι : Type} [DecidableEq ι]

/-- One run has its turn: the question that it waits at is answered, if it waits at one that can be. -/
def turn (d : Drives) (c : Config) (jobs : ι → Job) (mounted : String) (s : Company ι) (i : ι) :
    Company ι :=
  match (s.progress c jobs i).question? with
  | some q =>
    if q.replaces then s
    else s.answer i q (d.reply mounted s.table q).1 (d.reply mounted s.table q).2
  | none => s

/-- The runs take turns in this order. -/
def play (d : Drives) (c : Config) (jobs : ι → Job) (mounted table : String) (order : List ι) :
    Company ι :=
  order.foldl (turn d c jobs mounted) (start table)

end Company

end ConfigDrive.Run
