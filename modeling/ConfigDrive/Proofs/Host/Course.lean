/-
# ConfigDrive.Proofs.Host.Course — what a procedure does with a tree of files.

A procedure on the system can only ask questions, and a tree of files answers them.  Its **course** on a
tree is what comes of that: the programs that were started, in order, the result, and the tree after it.
A process that was replaced has the end of the other program as its result.

The course is a function of the procedure and the tree, so two facts are enough to tell it: a question
has the course of its answer, and going on is the one course after the other (`course_bind`).  A machine
follows the course and notes the stand-ins among the started programs (`perform_eq_course`).
-/
import ConfigDrive.Machine

namespace ConfigDrive.Host

/-! ## Courses -/

/-- A program that was started: by which command, and what runs. -/
structure Started where
  command : Command
  image : Image

/-- What comes of a procedure. -/
structure Course (α : Type) where
  started : List Started
  result : Except Completion α
  tree : FileTree

/-- The note on a program that was started, if it is a stand-in. -/
def Started.call? (s : Started) : Option Call :=
  match s.image with
  | .standIn path args _ => some { s.command with program := path, args }
  | .shell _ => none

/-- The program that a command starts, if it starts one. -/
def startedBy (t : FileTree) (replacing : Bool) (c : Command) : List Started :=
  match Execution.image? t replacing c with
  | .ok image => [⟨c, image⟩]
  | .error _ => []

namespace Question

/-- The program that is started to answer a question. -/
def started (t : FileTree) : Question → List Started
  | .collect c => startedBy t false c
  | .spawn c => startedBy t false c
  | .replace c => startedBy t true c
  | _ => []

/-- The answer to a question.  If the process is replaced there is none. -/
def answer (t : FileTree) : (q : Question) → Except Completion q.Answer
  | .readText path => .ok (t.readText path)
  | .listDirectory path => .ok (t.listDirectory path)
  | .makeDirectories path => .ok (t.makeDirectories path).1
  | .isExecutable path => .ok (t.isExecutable path)
  | .collect c => .ok ((Execution.image? t false c).map Image.completion)
  | .spawn c => .ok ((Execution.image? t false c).map fun image => image.completion.status)
  | .replace c =>
    match Execution.image? t true c with
    | .error e => .ok e
    | .ok image => .error image.completion

/-- The tree after a question. -/
def treeAfter (t : FileTree) : Question → FileTree
  | .makeDirectories path => (t.makeDirectories path).2
  | _ => t

end Question

variable {α β ε : Type}

/-- The course of a procedure on a tree. -/
def course : Steps α → FileTree → Course α
  | .done a, t => ⟨[], .ok a, t⟩
  | .report _ next, t => course next t
  | .ask q next, t =>
    match q.answer t with
    | .error completion => ⟨q.started t, .error completion, q.treeAfter t⟩
    | .ok a =>
      let rest := course (next a) (q.treeAfter t)
      { rest with started := q.started t ++ rest.started }

/-! ## One step after the other -/

theorem course_pure (a : α) (t : FileTree) : course (pure a) t = ⟨[], .ok a, t⟩ :=
  rfl

theorem course_say (level : Log.Level) (message : String) (t : FileTree) :
    course (.say level message) t = ⟨[], .ok (), t⟩ :=
  rfl

/-- A question starts its program, has its answer, and that is all. -/
theorem course_question (q : Question) (t : FileTree) :
    course (.question q) t = ⟨q.started t, q.answer t, q.treeAfter t⟩ := by
  rw [Procedure.question, course]
  cases q.answer t with
  | error completion => rfl
  | ok a =>
      show (⟨q.started t ++ [], .ok a, q.treeAfter t⟩ : Course q.Answer) = _
      rw [List.append_nil]

theorem course_readText (path : String) (t : FileTree) :
    course (readText path) t = ⟨[], .ok (t.readText path), t⟩ :=
  course_question (.readText path) t

theorem course_listDirectory (path : String) (t : FileTree) :
    course (listDirectory path) t = ⟨[], .ok (t.listDirectory path), t⟩ :=
  course_question (.listDirectory path) t

theorem course_makeDirectories (path : String) (t : FileTree) :
    course (makeDirectories path) t =
      ⟨[], .ok (t.makeDirectories path).1, (t.makeDirectories path).2⟩ :=
  course_question (.makeDirectories path) t

theorem course_isExecutable (path : String) (t : FileTree) :
    course (isExecutable path) t = ⟨[], .ok (t.isExecutable path), t⟩ :=
  course_question (.isExecutable path) t

theorem course_collect (c : Command) (t : FileTree) :
    course (collect c) t =
      ⟨startedBy t false c, .ok ((Execution.image? t false c).map Image.completion), t⟩ :=
  course_question (.collect c) t

theorem course_spawn (c : Command) (t : FileTree) :
    course (spawn c) t =
      ⟨startedBy t false c,
        .ok ((Execution.image? t false c).map fun image => image.completion.status), t⟩ :=
  course_question (.spawn c) t

theorem course_replace (c : Command) (t : FileTree) :
    course (replace c) t =
      ⟨startedBy t true c,
        match Execution.image? t true c with
        | .error e => .ok e
        | .ok image => .error image.completion, t⟩ :=
  course_question (.replace c) t

/-- **Going on is one course after the other**, unless the process was replaced. -/
theorem course_bind (p : Steps α) (f : α → Steps β) (t : FileTree) :
    course (p >>= f) t =
      match (course p t).result with
      | .error completion => ⟨(course p t).started, .error completion, (course p t).tree⟩
      | .ok a =>
        let rest := course (f a) (course p t).tree
        { rest with started := (course p t).started ++ rest.started } := by
  induction p generalizing t with
  | done a => rfl
  | report line next ih => exact ih t
  | ask q next ih =>
      show course (.ask q fun a => next a >>= f) t = _
      rw [course, course]
      -- if the process is replaced here, nothing comes after the question on either side
      cases hq : q.answer t with
      | error completion => rfl
      | ok a =>
          dsimp only
          rw [ih a (q.treeAfter t)]
          cases (course (next a) (q.treeAfter t)).result with
          | error completion => rfl
          | ok b => simp only [List.append_assoc]

/-- A first part with a result, and what goes on from it. -/
theorem course_bind_ok {p : Steps α} {f : α → Steps β} {t t' t'' : FileTree} {s s' : List Started}
    {a : α} {r : Except Completion β} (h : course p t = ⟨s, .ok a, t'⟩)
    (h' : course (f a) t' = ⟨s', r, t''⟩) : course (p >>= f) t = ⟨s ++ s', r, t''⟩ := by
  rw [course_bind, h]
  dsimp only
  rw [h']

/-- A first part with a result, after which nothing is started. -/
theorem course_bind_last {p : Steps α} {f : α → Steps β} {t t' t'' : FileTree} {s : List Started}
    {a : α} {r : Except Completion β} (h : course p t = ⟨s, .ok a, t'⟩)
    (h' : course (f a) t' = ⟨[], r, t''⟩) : course (p >>= f) t = ⟨s, r, t''⟩ := by
  have hbind := course_bind_ok h h'
  rw [List.append_nil] at hbind
  exact hbind

/-- A first part that only looks. -/
theorem course_bind_look {p : Steps α} {f : α → Steps β} {t : FileTree} {a : α}
    (h : course p t = ⟨[], .ok a, t⟩) : course (p >>= f) t = course (f a) t := by
  rw [course_bind, h]
  rfl

/-- A first part that fails ends the whole. -/
theorem course_bindE_error {x : ExceptT ε (Procedure Question Question.Answer) α}
    {f : α → ExceptT ε (Procedure Question Question.Answer) β} {t t' : FileTree} {s : List Started}
    {e : ε} (h : course x.run t = ⟨s, .ok (.error e), t'⟩) :
    course (x >>= f).run t = ⟨s, .ok (.error e), t'⟩ :=
  course_bind_last h (course_pure _ t')

/-- A first part that only looks, and finds what it looked for. -/
theorem course_bindE_look {x : ExceptT ε (Procedure Question Question.Answer) α}
    {f : α → ExceptT ε (Procedure Question Question.Answer) β} {t : FileTree} {a : α}
    (h : course x.run t = ⟨[], .ok (.ok a), t⟩) : course (x >>= f).run t = course (f a).run t := by
  show course (x.run >>= ExceptT.bindCont f) t = _
  rw [course_bind_look h]
  rfl

/-- **Parts that only look** find together what they find one after the other. -/
theorem course_bindE_looks {x : ExceptT ε (Procedure Question Question.Answer) α}
    {f : α → ExceptT ε (Procedure Question Question.Answer) β} {t : FileTree} {r : Except ε α}
    {g : α → Except ε β} (h : course x.run t = ⟨[], .ok r, t⟩)
    (h' : ∀ a, course (f a).run t = ⟨[], .ok (g a), t⟩) :
    course (x >>= f).run t = ⟨[], .ok (r >>= g), t⟩ := by
  cases r with
  | error e => exact course_bindE_error h
  | ok a =>
      rw [course_bindE_look h]
      exact h' a

theorem course_lift {p : Steps α} {t : FileTree} {a : α} (h : course p t = ⟨[], .ok a, t⟩) :
    course (ExceptT.lift p : ExceptT ε (Procedure Question Question.Answer) α).run t =
      ⟨[], .ok (.ok a), t⟩ := by
  rw [ExceptT.run_lift, ← bind_pure_comp, course_bind_look h]
  rfl

/-! ## Finding programs -/

theorem course_firstExecutable (t : FileTree) (paths : List String) :
    course (firstExecutable paths) t = ⟨[], .ok (paths.find? t.isExecutable), t⟩ := by
  induction paths with
  | nil => rfl
  | cons path paths ih =>
      rw [firstExecutable, course_bind_look (course_isExecutable path t), List.find?_cons]
      cases t.isExecutable path with
      | true => rfl
      | false => exact ih

/-- What a search path and a tree resolve a program to. -/
def resolved (t : FileTree) (p : SearchPath) (program : String) (args : List String) :
    Option Command :=
  (p.resolve t.isExecutable program).map fun path => ⟨path, args, p.envValue⟩

theorem course_command? (t : FileTree) (p : SearchPath) (program : String) (args : List String) :
    course (command? p program args) t = ⟨[], .ok (resolved t p program args), t⟩ := by
  rw [command?, course_bind_look (course_firstExecutable t _)]
  rfl

end ConfigDrive.Host

/-! ## Machines -/

namespace ConfigDrive.Machine

open Host

theorem run_note (m : Machine) (c : Host.Command) (image : Image) :
    (note c image).run.run m =
      (.ok (), { m with calls := m.calls ++ [(⟨c, image⟩ : Started)].filterMap Started.call? }) := by
  cases image with
  | standIn path args p => rfl
  | shell completion =>
      have hnone : [(⟨c, .shell completion⟩ : Started)].filterMap Started.call? = [] := rfl
      rw [hnone, List.append_nil]
      rfl

theorem run_start (m : Machine) (replacing : Bool) (c : Host.Command) :
    (start replacing c).run.run m =
      (.ok ((Execution.image? m.tree replacing c).map Image.completion),
        { m with calls := m.calls ++ (startedBy m.tree replacing c).filterMap Started.call? }) := by
  have hget : (get : MachineM Machine).run.run m = (.ok m, m) := rfl
  rw [start, run_bind_state, hget, startedBy]
  dsimp only
  cases Execution.image? m.tree replacing c with
  | error e =>
      dsimp only
      rw [List.filterMap_nil, List.append_nil]
      rfl
  | ok image =>
      dsimp only
      rw [run_bind_state, run_note]
      rfl

theorem run_startSharing (m : Machine) (replacing : Bool) (c : Host.Command) :
    ∃ m' : Machine, (startSharing replacing c).run.run m =
        (.ok ((Execution.image? m.tree replacing c).map Image.completion), m') ∧
      m'.tree = m.tree ∧
      m'.calls = m.calls ++ (startedBy m.tree replacing c).filterMap Started.call? := by
  rw [startSharing, run_bind_state, run_start]
  dsimp only
  cases Execution.image? m.tree replacing c with
  | error e => exact ⟨_, rfl, rfl, rfl⟩
  | ok image => exact ⟨_, rfl, rfl, rfl⟩

/-- What a machine answers, and what it notes of it. -/
theorem answer_eq (m : Machine) (q : Host.Question) :
    ∃ m' : Machine, (answer q).run.run m = (q.answer m.tree, m') ∧ m'.tree = q.treeAfter m.tree ∧
      m'.calls = m.calls ++ (q.started m.tree).filterMap Started.call? := by
  cases q with
  | readText path => exact ⟨m, rfl, rfl, (List.append_nil _).symm⟩
  | listDirectory path => exact ⟨m, rfl, rfl, (List.append_nil _).symm⟩
  | makeDirectories path =>
      exact ⟨{ m with tree := (m.tree.makeDirectories path).2 }, rfl, rfl, (List.append_nil _).symm⟩
  | isExecutable path => exact ⟨m, rfl, rfl, (List.append_nil _).symm⟩
  | collect c => exact ⟨_, run_start m false c, rfl, rfl⟩
  | spawn c =>
      obtain ⟨m', hrun, htree, hcalls⟩ := run_startSharing m false c
      refine ⟨m', ?_, htree, hcalls⟩
      rw [answer, run_bind_state, hrun, Question.answer]
      cases Execution.image? m.tree false c <;> rfl
  | replace c =>
      obtain ⟨m', hrun, htree, hcalls⟩ := run_startSharing m true c
      refine ⟨m', ?_, htree, hcalls⟩
      rw [answer, run_bind_state, hrun, Question.answer]
      cases Execution.image? m.tree true c <;> rfl

theorem perform_ask {α : Type} (m : Machine) (q : Host.Question) (next : q.Answer → Host.Steps α) :
    m.perform (.ask q next) =
      match (answer q).run.run m with
      | (.ok a, m') => m'.perform (next a)
      | (.error completion, m') => (.error completion, m') := by
  show ((answer q >>= fun a => (next a).run report answer).run.run m) = _
  rw [run_bind_state]
  rcases (answer q).run.run m with ⟨_ | _, m'⟩ <;> rfl

/-- **A machine follows the course of a procedure**: the result, the tree and the notes on the programs
are those of the course. -/
theorem perform_eq_course {α : Type} (m : Machine) (p : Host.Steps α) :
    (m.perform p).1 = (course p m.tree).result ∧
      (m.perform p).2.tree = (course p m.tree).tree ∧
      (m.perform p).2.calls =
        m.calls ++ (course p m.tree).started.filterMap Started.call? := by
  induction p generalizing m with
  | done a => exact ⟨rfl, rfl, (List.append_nil _).symm⟩
  | report line next ih => exact ih { m with log := m.log ++ [line] }
  | ask q next ih =>
      obtain ⟨m', hanswer, htree, hcalls⟩ := m.answer_eq q
      rw [perform_ask, hanswer, course]
      -- the rest runs on the machine after the answer, whose tree is the one after the question
      cases q.answer m.tree with
      | error completion => exact ⟨rfl, htree, hcalls⟩
      | ok a =>
          obtain ⟨hresult, htree', hcalls'⟩ := ih a m'
          rw [htree] at hresult htree' hcalls'
          refine ⟨hresult, htree', ?_⟩
          show (m'.perform (next a)).2.calls = _
          rw [hcalls', hcalls, List.filterMap_append, List.append_assoc]

end ConfigDrive.Machine
