/-
# ConfigDrive.Proofs.Host.Enumeration — directories in any order.

A system lists the entries of a directory in an order of its own.  An `Enumeration` is such an order; with
it a tree of files answers every question (`Enumeration.reply`).  A machine lists entries as its tree does,
and the result of a procedure on a machine and the lines in its log are those of the account in that order
(`perform_eq_account`).
-/
import ConfigDrive.Proofs.Account
import ConfigDrive.Proofs.Host.Course

namespace ConfigDrive.Host

/-- An order in which the entries of directories are listed. -/
structure Enumeration where
  order : String → List String → List String
  perm : ∀ path names, (order path names).Perm names

namespace Enumeration

/-- The order of the entries in the tree. -/
def inTree : Enumeration where
  order _ names := names
  perm _ names := .refl names

/-- What a tree answers with this order, and the tree after that. -/
def reply (e : Enumeration) :
    (q : Question) → FileTree → Except Completion q.Answer × FileTree
  | .listDirectory path, t => (.ok ((t.listDirectory path).map (e.order path)), t)
  | q, t => (q.answer t, q.treeAfter t)

theorem reply_inTree (q : Question) (t : FileTree) :
    inTree.reply q t = (q.answer t, q.treeAfter t) := by
  cases q with
  | listDirectory path =>
      show (Except.ok ((t.listDirectory path).map fun names => names), t) =
        (.ok (t.listDirectory path), t)
      cases t.listDirectory path <;> rfl
  | _ => rfl

end Enumeration

end ConfigDrive.Host

namespace ConfigDrive.Machine

open Host

theorem log_startSharing (m : Machine) (replacing : Bool) (c : Host.Command) :
    ((startSharing replacing c).run.run m).2.log = m.log := by
  rw [startSharing, run_bind_state, run_start]
  dsimp only
  cases Execution.image? m.tree replacing c <;> rfl

/-- Only a report changes the log. -/
theorem log_answer (m : Machine) (q : Host.Question) : ((answer q).run.run m).2.log = m.log := by
  cases q with
  | collect c =>
      rw [answer, run_start]
  | spawn c =>
      have hlog := log_startSharing m false c
      rw [answer, run_bind_state]
      rcases hrun : (startSharing false c).run.run m with ⟨_ | r, m'⟩ <;> rw [hrun] at hlog
      · exact hlog
      · exact hlog
  | replace c =>
      have hlog := log_startSharing m true c
      rw [answer, run_bind_state]
      rcases hrun : (startSharing true c).run.run m with ⟨_ | r, m'⟩ <;> rw [hrun] at hlog
      · exact hlog
      · cases r <;> exact hlog
  | _ => rfl

/-- **A machine follows the account of a procedure** in the order of its tree: the result is that of the
account, and its lines are put into the log. -/
theorem perform_eq_account {α : Type} (m : Machine) (p : Host.Steps α) :
    (m.perform p).1 = (Procedure.account Enumeration.inTree.reply p m.tree).result ∧
      (m.perform p).2.log =
        m.log ++ (Procedure.account Enumeration.inTree.reply p m.tree).log := by
  induction p generalizing m with
  | done a => exact ⟨rfl, (List.append_nil _).symm⟩
  | report line next ih =>
      obtain ⟨hresult, hlog⟩ := ih { m with log := m.log ++ [line] }
      refine ⟨hresult, ?_⟩
      rw [List.append_assoc] at hlog
      exact hlog
  | ask q next ih =>
      obtain ⟨m', hanswer, htree, -⟩ := m.answer_eq q
      have hlog := m.log_answer q
      rw [hanswer] at hlog
      rw [perform_ask, hanswer, Procedure.account, Enumeration.reply_inTree]
      cases q.answer m.tree with
      | error completion =>
          refine ⟨rfl, ?_⟩
          show m'.log = m.log ++ []
          rw [List.append_nil]
          exact hlog
      | ok a =>
          obtain ⟨hresult, hrest⟩ := ih a m'
          rw [htree] at hresult hrest
          refine ⟨hresult, ?_⟩
          show (m'.perform (next a)).2.log = _
          have hlog' : m'.log = m.log := hlog
          rw [hrest, hlog']
          rfl

end ConfigDrive.Machine
