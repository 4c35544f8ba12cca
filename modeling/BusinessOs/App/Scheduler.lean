/- Source: app/services/scheduler.py, app/agents/orchestrator.py, app/worker.py
   digest: Processors that poll for pending workflows, interleaved between their commits. -/

import BusinessOs.App.Workflows
import BusinessOs.Lib.Batches
import BusinessOs.Lib.Execution
import BusinessOs.Lib.Interleaving

set_option autoImplicit false
set_option relaxedAutoImplicit false

namespace BusinessOs.App.Scheduler

open BusinessOs.Lib BusinessOs.Lib.Json.Tree
open BusinessOs.App.Models BusinessOs.App.Workflows

/-- The query of `process_pending_workflows`; rows created at one instant keep the table's order. -/
def pendingWorkflows (rows : List Workflow) : List Workflow :=
  ((rows.filter fun r => r.status == .pending).insertionSort
    fun r s => r.createdAt ≤ s.createdAt).take 10

/-- What the query selects: committed pending rows, each once. -/
theorem pendingWorkflows_mem {rows : List Workflow} {row : Workflow}
    (member : row ∈ pendingWorkflows rows) : row ∈ rows ∧ row.status = .pending := by
  change row ∈ Batches.batch Workflow.createdAt 10 _ at member
  simpa using Batches.mem_of_mem_batch member

theorem pendingWorkflows_nodup {rows : List Workflow} (keys : (rows.map Workflow.id).Nodup) :
    ((pendingWorkflows rows).map Workflow.id).Nodup := by
  show ((Batches.batch Workflow.createdAt 10 _).map _).Nodup
  exact Batches.batch_nodup_map (keys.sublist (List.filter_sublist.map _))

/-- Where a processor stands; the list holds the workflows that its loop has still to visit. -/
inductive Phase
  /-- Between two passes. -/
  | idle
  /-- At the head of the loop. -/
  | looping (rest : List WorkflowCopy)
  /-- After the first commit of `mark_running`. -/
  | marked (workflow : WorkflowCopy) (rest : List WorkflowCopy)
  /-- Inside `agent.run`. -/
  | running (workflow : WorkflowCopy) (rest : List WorkflowCopy)
  /-- After the commit of the outcome, with the records that `run_workflow` still commits. -/
  | finishing (workflow : WorkflowCopy) (records : List Record) (rest : List WorkflowCopy)
  deriving DecidableEq

/-- Steps of a processor, one commit each, and arrivals of new workflows. -/
inductive Event (P : Type)
  | select (p : P)
  | unsupported (p : P)
  | markRunning (p : P)
  | startAgent (p : P) (id : String)
  | waitForHuman (p : P)
  | finish (p : P) (outcome : Except String Value) (escalationId : String)
  | record (p : P)
  | next (p : P)
  | close (p : P)
  | create (id kind title : String) (payload : Value) (source : String) (createdAt : ℤ)
  deriving DecidableEq

/-- The committed tables, and where each processor stands. -/
abbrev World (P : Type) := Interleaving.World P Database Phase

variable {P : Type} [DecidableEq P]

/-- `none` where the event does not fit the processor's phase. -/
def step (s : World P) : Event P → Option (World P)
  | .select p =>
    match s.phase p with
    | .idle =>
      some (s.move p s.db (.looping ((pendingWorkflows s.db.workflows).map WorkflowCopy.load)))
    | _ => none
  -- `run_workflow` raises before it touches the row, and the loop logs the error.
  | .unsupported p =>
    match s.phase p with
    | .looping (workflow :: rest) =>
      if workflow.supported then none else some (s.move p s.db (.looping rest))
    | _ => none
  | .markRunning p =>
    match s.phase p with
    | .looping (workflow :: rest) =>
      if workflow.supported then
        let workflow := markRunning workflow
        some (s.move p (workflow.commit s.db) (.marked workflow.committed rest))
      else none
    | _ => none
  | .startAgent p id =>
    match s.phase p with
    | .marked workflow rest =>
      if workflow.id = id then
        some (s.move p ((startedRecord workflow).commit s.db) (.running workflow rest))
      else none
    | _ => none
  | .waitForHuman p =>
    match s.phase p with
    | .running workflow rest =>
      let workflow := waitForHuman workflow
      some (s.move p (workflow.commit s.db) (.running workflow.committed rest))
    | _ => none
  | .finish p outcome escalationId =>
    match s.phase p with
    | .running workflow rest =>
      let records := finishRecords workflow escalationId outcome
      let workflow := finish workflow outcome
      some (s.move p (workflow.commit s.db) (.finishing workflow.committed records rest))
    | _ => none
  | .record p =>
    match s.phase p with
    | .finishing workflow (record :: records) rest =>
      some (s.move p (record.commit s.db) (.finishing workflow records rest))
    | _ => none
  | .next p =>
    match s.phase p with
    | .finishing _ [] rest => some (s.move p s.db (.looping rest))
    | _ => none
  | .close p =>
    match s.phase p with
    | .looping [] => some (s.move p s.db .idle)
    | _ => none
  -- `WorkflowService.create`; no processor reads the log, so its two commits are taken together.
  | .create id kind title payload source createdAt =>
    if id ∈ s.db.workflows.map Workflow.id then none
    else
      let db := { s.db with
        workflows := s.db.workflows ++ [Workflow.new id kind title payload source createdAt] }
      let metadata := .object [("kind", .string kind), ("source", .string source)]
      some { s with
        db := db.record .workflowCreated ("Workflow created: " ++ title) (some id) "system"
          metadata }

/-- The copies that the loop has still to visit. -/
def Phase.loop : Phase → List WorkflowCopy
  | .idle => []
  | .looping rest | .marked _ rest | .running _ rest | .finishing _ _ rest => rest

/-- The workflow between `mark_running` and the end of `run_workflow`. -/
def Phase.inside : Phase → Option String
  | .idle | .looping _ => none
  | .marked workflow _ | .running workflow _ | .finishing workflow _ _ => some workflow.id

/-- The copies that the loop has still to run; it passes over those without an agent. -/
def Phase.rest (phase : Phase) : List WorkflowCopy := phase.loop.filter WorkflowCopy.supported

/-- The workflows that a pass runs or has still to run. -/
def Phase.held (phase : Phase) : List String :=
  phase.inside.toList ++ phase.rest.map WorkflowCopy.id

def Event.startsAgent (id : String) : Event P → Bool
  | .startAgent _ i => i == id
  | _ => false

/-- Starts of `agent.run` for a workflow. -/
def starts (es : List (Event P)) (id : String) : ℕ := es.countP (Event.startsAgent id)

/-- The attempts in a workflow's committed row. -/
def attempts (s : World P) (id : String) : ℤ :=
  match s.db.workflow id with
  | some row => row.attempts
  | none => 0

/-- Idle processors over rows with distinct ids, where a pending row has an attempt left. -/
structure Initial (s : World P) : Prop where
  idle : ∀ p, s.phase p = .idle
  keys : (s.db.workflows.map Workflow.id).Nodup
  attempts : ∀ row ∈ s.db.workflows, row.attempts ≤ row.maxAttempts ∧
    (row.status = .pending → row.attempts < row.maxAttempts)

/-- No pass selects a workflow that another processor's pass still holds. -/
def NoOverlap (s : World P) : Event P → Prop
  | .select p => ∀ row ∈ pendingWorkflows s.db.workflows, ∀ q, q ≠ p → row.id ∉ (s.phase q).held
  | _ => True

end BusinessOs.App.Scheduler
