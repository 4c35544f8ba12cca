/- Source: app/agents/orchestrator.py (run_workflow), app/services/workflows.py, app/db.py
   digest: run_workflow where the store refuses to flush one of its commits. -/

import BusinessOs.App.CrashPoints

set_option autoImplicit false
set_option relaxedAutoImplicit false

namespace BusinessOs.App.FlushFailures

open BusinessOs.Lib BusinessOs.Lib.UnitOfWork BusinessOs.Lib.Json.Tree
open BusinessOs.App.Models BusinessOs.App.Workflows BusinessOs.App.Company
open BusinessOs.App.Sessions BusinessOs.App.Orchestrator BusinessOs.App.CrashPoints

/-- One call of `run_workflow`: its agent, the id of an escalation, and the commit that the store
refuses to flush, by the number of statements ahead of it. -/
structure Attempt where
  behaviour : Behaviour
  escalationId : String
  refused : Option ℕ
  deriving DecidableEq

section Attempt

variable (attempt : Attempt) (workflow : WorkflowCopy)

/-- The statements ahead of the commit that fails; none fails where the refused one is none. -/
def Attempt.failure : Option ℕ :=
  attempt.refused.filter fun k => decide
    ((program workflow attempt.behaviour attempt.escalationId)[k]? = some .commit)

/-- `run_workflow`. Behind a flush that has failed the session answers nothing but a rollback, which
nobody calls: the branch for exceptions raises as well, and the rows stay as last committed. -/
def Attempt.run (db : CompanyDatabase) : CompanyDatabase :=
  match attempt.failure workflow with
  | none => runWorkflow workflow attempt.behaviour attempt.escalationId db
  | some k => crashed workflow attempt.behaviour attempt.escalationId k db

/-- The agent raises: by itself, or out of one of its own commits, which stand behind the four
statements of `mark_running`. -/
def Attempt.agentFails : Bool :=
  (match attempt.behaviour.outcome with
    | .ok _ => false
    | .error _ => true) ||
  (attempt.failure workflow).any fun k =>
    decide (4 ≤ k ∧ k < 4 + (attempt.behaviour.statements workflow.id).length)

end Attempt

section Row

variable {db : CompanyDatabase} {row : Workflow} {attempt : Attempt}

/-- A kind without an agent raises ahead of every commit. -/
theorem unsupported_failure (unsupported : (WorkflowCopy.load row).supported = false) :
    attempt.failure (.load row) = none := by
  rw [Attempt.failure, Option.filter_eq_none_iff]
  intro k _
  simp [program, unsupported]

theorem unsupported_run (unsupported : (WorkflowCopy.load row).supported = false) :
    attempt.run (.load row) db = db := by
  rw [Attempt.run, unsupported_failure unsupported]
  exact runWorkflow_unsupported _ _ unsupported

/-- One row of the table changes. -/
theorem run_rows (db : CompanyDatabase) (row : Workflow) (attempt : Attempt) :
    ∃ change : Workflow → Workflow, (∀ row, (change row).id = row.id) ∧
      (attempt.run (.load row) db).workflows =
        Table.update Workflow.id db.workflows row.id change := by
  unfold Attempt.run
  split
  · exact execute_workflows _ _
  · exact execute_workflows _ _

theorem run_of_ne {id : String} (other : id ≠ row.id) :
    (attempt.run (.load row) db).workflow id = db.workflow id := by
  obtain ⟨change, keeps, rows⟩ := run_rows db row attempt
  rw [Database.workflow, rows, Table.get_update_of_ne keeps other]
  rfl

/-- What is committed behind the first commit of `mark_running` counts the attempt, and puts the
workflow back into the queue with an attempt left only. -/
theorem cut_copy (behaviour : Behaviour) (escalationId : String) {k : ℕ}
    (supported : (WorkflowCopy.load row).supported = true) (started : 2 ≤ k) :
    let left := copyAfter (.load row)
      (settled ((program (.load row) behaviour escalationId).take k))
    left.attempts.current = row.attempts + 1 ∧
      (left.status.current = .pending → row.attempts + 1 < row.maxAttempts) := by
  intro left
  rcases Nat.lt_or_ge k ((behaviour.statements row.id).length + 6) with before | after
  · obtain ⟨front, fronts, cut⟩ := settled_before behaviour escalationId supported started before
    have byAgent : ∀ statement ∈ settled (executed behaviour row.id k),
        statement.byAgent = true := fun statement member =>
      statements_byAgent row.id behaviour statement (List.mem_of_mem_take (mem_of_settled member))
    have opened : (copyAfter (.load row) front).attempts.current = row.attempts + 1 ∧
        (copyAfter (.load row) front).status.current = .running := by
      rcases fronts with rfl | rfl <;> exact ⟨rfl, rfl⟩
    have split : left = copyAfter (copyAfter (.load row) front)
        (settled (executed behaviour row.id k)) := by
      show copyAfter _ (settled _) = _
      rw [cut, copyAfter_append]
    rw [split, agent_attempts byAgent, agent_status byAgent, opened.1, opened.2]
    refine ⟨rfl, fun pending => ?_⟩
    split at pending <;> cases pending
  · obtain ⟨records, inert, cut⟩ := settled_after behaviour escalationId supported after
    have byAgent : ∀ statement ∈ records, statement.byAgent = true :=
      fun statement member => (inert statement member).1
    have silent : .waitForHuman ∉ records := fun member => (inert _ member).2 rfl
    obtain ⟨attempts, maxAttempts, _⟩ := before_copy row (statements_byAgent row.id behaviour)
    have split : left = copyAfter (copyAfter (copyAfter (.load row)
        (opening (.load row) ++ behaviour.statements row.id))
          [.finish behaviour.outcome, .commit]) records := by
      show copyAfter _ (settled _) = _
      rw [cut, copyAfter_append, copyAfter_append]
    rw [split, agent_attempts byAgent, agent_status byAgent, if_neg silent]
    show (finish _ behaviour.outcome).attempts.current = _ ∧
      ((finish _ behaviour.outcome).status.current = _ → _)
    rw [finish_attempts, finish_status, attempts, maxAttempts]
    refine ⟨rfl, fun pending => ?_⟩
    cases answer : behaviour.outcome with
    | ok result =>
      simp only [answer] at pending
      split at pending <;> cases pending
    | error exc =>
      simp only [answer] at pending
      by_contra full
      rw [if_neg full] at pending
      cases pending

/-- What an attempt leaves of its own row: all as it was, if the first commit of `mark_running`
fails, and an attempt more otherwise. -/
theorem run_row (attempt : Attempt) (found : db.workflow row.id = some row)
    (supported : (WorkflowCopy.load row).supported = true) :
    ∃ next, (attempt.run (.load row) db).workflow row.id = some next ∧
      next.maxAttempts = row.maxAttempts ∧
      ((∃ k ∈ attempt.failure (.load row), k < 2) ∧ next = row ∨
        (∀ k ∈ attempt.failure (.load row), 2 ≤ k) ∧ next.attempts = row.attempts + 1 ∧
          (next.status = .pending → row.attempts + 1 < row.maxAttempts)) := by
  unfold Attempt.run
  cases fails : attempt.failure (.load row) with
  | none =>
    obtain ⟨next, after, status, attempts, maxAttempts, _⟩ :=
      runWorkflow_row attempt.behaviour attempt.escalationId found supported
    refine ⟨next, after, maxAttempts, .inr ⟨by simp, attempts, fun pending => ?_⟩⟩
    rw [status] at pending
    exact finalStatus_pending pending
  | some k =>
    rcases Nat.lt_or_ge k 2 with early | started
    · refine ⟨row, ?_, rfl, .inl ⟨⟨k, rfl, early⟩, rfl⟩⟩
      show (crashed _ _ _ _ _).workflow _ = _
      rw [crashed_early _ _ early]
      exact found
    · obtain ⟨next, after, status, attempts, maxAttempts, _⟩ := start_row found
        ((program (.load row) attempt.behaviour attempt.escalationId).take k)
      obtain ⟨counted, queued⟩ :=
        cut_copy attempt.behaviour attempt.escalationId supported started
      refine ⟨next, after, maxAttempts, .inr ⟨?_, attempts.trans counted, fun pending => ?_⟩⟩
      · rintro l member
        obtain rfl := Option.some.inj member
        exact started
      · exact queued (status.symm.trans pending)

end Row

end BusinessOs.App.FlushFailures
