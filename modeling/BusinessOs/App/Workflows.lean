/- Source: app/services/workflows.py, app/agents/orchestrator.py, app/services/escalation.py
   digest: A session's copy of a workflow, and the commits that run_workflow makes with it. -/

import BusinessOs.App.Models
import BusinessOs.Lib.UnitOfWork

set_option autoImplicit false
set_option relaxedAutoImplicit false

namespace BusinessOs.App.Workflows

open BusinessOs.Lib BusinessOs.Lib.UnitOfWork BusinessOs.Lib.Json.Tree BusinessOs.App.Models

/-- The row object of one session, with the columns that the orchestrator reads or changes. -/
structure WorkflowCopy where
  id : String
  kind : String
  title : String
  maxAttempts : ℤ
  status : Tracked WorkflowStatus
  attempts : Tracked ℤ
  result : Tracked Value
  deriving DecidableEq

def WorkflowCopy.load (row : Workflow) : WorkflowCopy where
  id := row.id
  kind := row.kind
  title := row.title
  maxAttempts := row.maxAttempts
  status := .load row.status
  attempts := .load row.attempts
  result := .load row.result

section Copy

variable (workflow : WorkflowCopy)

/-- The `UPDATE` of a flush. -/
def WorkflowCopy.flush (row : Workflow) : Workflow :=
  { row with
    status := workflow.status.flush row.status
    attempts := workflow.attempts.flush row.attempts
    result := workflow.result.flush row.result }

/-- The copy after the commit; it is not read again. -/
def WorkflowCopy.committed : WorkflowCopy :=
  { workflow with
    status := workflow.status.committed
    attempts := workflow.attempts.committed
    result := workflow.result.committed }

def WorkflowCopy.commit (db : Database) : Database :=
  { db with workflows := Table.update Workflow.id db.workflows workflow.id workflow.flush }

/-- The kinds that the orchestrator has an agent for. -/
def WorkflowCopy.supported : Bool :=
  workflow.kind ∈ ["lead_qualification", "client_onboarding", "delivery_monitoring",
    "department_operation", "finance_operations", "knowledge_communication"]

/-- `mark_running` up to its first commit. -/
def markRunning : WorkflowCopy :=
  { workflow with
    status := workflow.status.set .running
    attempts := workflow.attempts.set (workflow.attempts.current + 1) }

/-- An agent that asks for a human sets the status and commits. -/
def waitForHuman : WorkflowCopy :=
  { workflow with status := workflow.status.set .waitingForHuman }

/-- `mark_completed` up to its first commit. -/
def markCompleted (result : Value) : WorkflowCopy :=
  { workflow with
    status := workflow.status.set .completed
    result := workflow.result.set result }

/-- `mark_failed` up to its first commit. -/
def markFailed (error : String) : WorkflowCopy :=
  { workflow with
    status := workflow.status.set .failed
    result := workflow.result.set (.object [("error", .string error)]) }

/-- What `run_workflow` writes into the row after the agent has returned or raised. -/
def finish : Except String Value → WorkflowCopy
  | .ok result =>
    if workflow.status.current ≠ .waitingForHuman then markCompleted workflow result
    else { workflow with result := workflow.result.set result }
  | .error exc =>
    if workflow.attempts.current < workflow.maxAttempts then
      { workflow with
        status := workflow.status.set .pending
        result := workflow.result.set
          (.object [("last_error", .string exc), ("retrying", .bool true)]) }
    else markFailed workflow exc

end Copy

/-- A row that a later commit of the same call adds to another table. -/
inductive Record
  | audit (entry : AuditLog)
  | escalation (entry : Escalation)
  deriving DecidableEq

def Record.commit (db : Database) : Record → Database
  | .audit entry => { db with auditLogs := db.auditLogs ++ [entry] }
  | .escalation entry => { db with escalations := db.escalations ++ [entry] }

section Records

variable (workflow : WorkflowCopy)

def startedRecord : Record :=
  .audit
    { workflowId := some workflow.id
      action := .workflowStarted
      actor := "system"
      message := "Workflow started: " ++ workflow.title
      metadata := .object [] }

/-- The commits after the one of `finish`, in order; an escalation gets a generated id. -/
def finishRecords (escalationId : String) : Except String Value → List Record
  | .ok _ =>
    if workflow.status.current ≠ .waitingForHuman then
      [.audit
        { workflowId := some workflow.id
          action := .workflowCompleted
          actor := "system"
          message := "Workflow completed: " ++ workflow.title
          metadata := .object [] }]
    else []
  | .error exc =>
    if workflow.attempts.current < workflow.maxAttempts then
      [.audit
        { workflowId := some workflow.id
          action := .workflowFailed
          actor := "system"
          message := "Workflow will retry: " ++ exc
          metadata := .object [("attempts", int workflow.attempts.current),
            ("max_attempts", int workflow.maxAttempts)] }]
    else
      let reason := "Workflow failed after retries: " ++ workflow.title
      [.audit
        { workflowId := some workflow.id
          action := .workflowFailed
          actor := "system"
          message := exc
          metadata := .object [] },
       .escalation
        { id := escalationId
          workflowId := some workflow.id
          severity := "high"
          owner := "ops"
          reason
          context := .object [("error", .string exc), ("kind", .string workflow.kind)] },
       .audit
        { workflowId := some workflow.id
          action := .escalationCreated
          actor := "system"
          message := reason
          metadata := .object [("severity", .string "high"), ("owner", .string "ops"),
            ("escalation_id", .string escalationId)] }]

end Records

/-! A copy that was read from a row, and what a commit of it leaves. -/

/-- The values that the copy was loaded with are the row's. -/
structure ReadFrom (workflow : WorkflowCopy) (row : Workflow) : Prop where
  id : workflow.id = row.id
  kind : workflow.kind = row.kind
  title : workflow.title = row.title
  maxAttempts : workflow.maxAttempts = row.maxAttempts
  status : workflow.status.loaded = row.status
  attempts : workflow.attempts.loaded = row.attempts
  result : workflow.result.loaded = row.result

variable {workflow : WorkflowCopy} {row : Workflow}

theorem load_readFrom : ReadFrom (.load row) row := ⟨rfl, rfl, rfl, rfl, rfl, rfl, rfl⟩

theorem flush_id (row : Workflow) : (workflow.flush row).id = row.id := rfl

theorem ReadFrom.flush_status (read : ReadFrom workflow row) :
    (workflow.flush row).status = workflow.status.current := flush_of_loaded read.status

theorem ReadFrom.flush_attempts (read : ReadFrom workflow row) :
    (workflow.flush row).attempts = workflow.attempts.current := flush_of_loaded read.attempts

/-- After its commit the copy agrees with the row again. -/
theorem ReadFrom.committed (read : ReadFrom workflow row) :
    workflow.committed = .load (workflow.flush row) := by
  obtain ⟨id, kind, title, maxAttempts, status, attempts, result⟩ := read
  simp only [WorkflowCopy.committed, WorkflowCopy.load, WorkflowCopy.flush, committed_eq,
    flush_of_loaded status, flush_of_loaded attempts, flush_of_loaded result]
  rw [← id, ← kind, ← title, ← maxAttempts]

theorem ReadFrom.markRunning (read : ReadFrom workflow row) :
    ReadFrom (markRunning workflow) row :=
  ⟨read.id, read.kind, read.title, read.maxAttempts, read.status, read.attempts, read.result⟩

theorem ReadFrom.waitForHuman (read : ReadFrom workflow row) :
    ReadFrom (waitForHuman workflow) row :=
  ⟨read.id, read.kind, read.title, read.maxAttempts, read.status, read.attempts, read.result⟩

/-- Finishing sets the status and the result; it leaves the row pending only for another attempt. -/
theorem finish_cases (workflow : WorkflowCopy) (outcome : Except String Value) :
    ∃ status result, finish workflow outcome = { workflow with
        status := workflow.status.set status
        result := workflow.result.set result } ∧
      (status = .pending → workflow.attempts.current < workflow.maxAttempts) := by
  cases outcome with
  | ok result =>
    by_cases waiting : workflow.status.current = .waitingForHuman
    · refine ⟨.waitingForHuman, result, ?_, by simp⟩
      simp only [finish, waiting, ne_eq, not_true_eq_false, if_false]
      rw [← waiting]
      rfl
    · refine ⟨.completed, result, ?_, by simp⟩
      simp only [finish, waiting, ne_eq, not_false_eq_true, if_true, markCompleted]
  | error exc =>
    by_cases retry : workflow.attempts.current < workflow.maxAttempts
    · refine ⟨.pending, .object [("last_error", .string exc), ("retrying", .bool true)], ?_,
        fun _ => retry⟩
      simp only [finish, retry, if_true]
    · refine ⟨.failed, .object [("error", .string exc)], ?_, by simp⟩
      simp only [finish, retry, if_false, markFailed]

theorem ReadFrom.finish (read : ReadFrom workflow row) (outcome : Except String Value) :
    ReadFrom (finish workflow outcome) row := by
  obtain ⟨status, result, finished, _⟩ := finish_cases workflow outcome
  rw [finished]
  exact ⟨read.id, read.kind, read.title, read.maxAttempts, read.status, read.attempts, read.result⟩

theorem finish_id (outcome : Except String Value) :
    (finish workflow outcome).id = workflow.id := by
  obtain ⟨_, _, finished, _⟩ := finish_cases workflow outcome
  rw [finished]

theorem finish_attempts (outcome : Except String Value) :
    (finish workflow outcome).attempts = workflow.attempts := by
  obtain ⟨_, _, finished, _⟩ := finish_cases workflow outcome
  rw [finished]

theorem finish_pending {outcome : Except String Value}
    (pending : (finish workflow outcome).status.current = .pending) :
    workflow.attempts.current < workflow.maxAttempts := by
  obtain ⟨status, _, finished, room⟩ := finish_cases workflow outcome
  rw [finished] at pending
  exact room pending

end BusinessOs.App.Workflows
