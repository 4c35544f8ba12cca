/- Source: rust/src/audit.rs
   digest: The append-only audit log, and the actions that it holds for one workflow. -/

import BusinessOs.Core.Types
import Mathlib.Data.List.Basic

set_option autoImplicit false
set_option relaxedAutoImplicit false

namespace BusinessOs.Core.Audit

open BusinessOs.Lib.Json.Tree BusinessOs.Core.Types

/-- The UUID and the clock reading that one record takes. -/
structure Stamp where
  id : String
  timestamp : ℤ
  deriving DecidableEq

structure AuditService where
  entries : List AuditEntry
  deriving DecidableEq

def AuditService.new : AuditService := ⟨[]⟩

section Record

variable (self : AuditService)

/-- The entry that the source returns a reference to is the last one. -/
def AuditService.record (action : AuditAction) (actor message : String)
    (workflowId : Option String) (metadata : Value) (stamp : Stamp) : AuditService where
  entries := self.entries ++
    [{ id := stamp.id, workflowId, action, actor, message, metadata, timestamp := stamp.timestamp }]

def AuditService.recordWorkflowCreated (workflowId : String) (kind : WorkflowKind)
    (source : String) (stamp : Stamp) : AuditService :=
  self.record .workflowCreated "system"
    ("Workflow " ++ workflowId ++ " created (kind=" ++ kind.debug ++ ", source=" ++ source ++ ")")
    (some workflowId) (.object [("kind", .string kind.debug), ("source", .string source)]) stamp

def AuditService.recordWorkflowStarted (workflowId : String) (stamp : Stamp) : AuditService :=
  self.record .workflowStarted "system" ("Workflow " ++ workflowId ++ " started")
    (some workflowId) (.object []) stamp

def AuditService.recordWorkflowCompleted (workflowId : String) (result : Value) (stamp : Stamp) :
    AuditService :=
  self.record .workflowCompleted "system" ("Workflow " ++ workflowId ++ " completed")
    (some workflowId) (.object [("result", result)]) stamp

def AuditService.recordWorkflowFailed (workflowId error : String) (stamp : Stamp) :
    AuditService :=
  self.record .workflowFailed "system" ("Workflow " ++ workflowId ++ " failed: " ++ error)
    (some workflowId) (.object [("error", .string error)]) stamp

def AuditService.recordTaskStarted (workflowId taskId agent tool : String) (stamp : Stamp) :
    AuditService :=
  self.record .taskStarted agent
    ("Task " ++ taskId ++ " started (agent=" ++ agent ++ ", tool=" ++ tool ++ ")")
    (some workflowId)
    (.object [("agent", .string agent), ("task_id", .string taskId), ("tool", .string tool)]) stamp

def AuditService.recordTaskCompleted (workflowId taskId : String) (stamp : Stamp) : AuditService :=
  self.record .taskCompleted "system" ("Task " ++ taskId ++ " completed") (some workflowId)
    (.object [("task_id", .string taskId)]) stamp

def AuditService.recordTaskFailed (workflowId taskId error : String) (stamp : Stamp) :
    AuditService :=
  self.record .taskFailed "system" ("Task " ++ taskId ++ " failed: " ++ error) (some workflowId)
    (.object [("error", .string error), ("task_id", .string taskId)]) stamp

def AuditService.recordApprovalRequested (workflowId title : String) (stamp : Stamp) :
    AuditService :=
  self.record .approvalRequested "system" ("Approval requested: " ++ title) (some workflowId)
    (.object [("title", .string title)]) stamp

def AuditService.recordApprovalGranted (workflowId decidedBy : String) (stamp : Stamp) :
    AuditService :=
  self.record .approvalGranted decidedBy
    ("Approval granted for workflow " ++ workflowId ++ " by " ++ decidedBy) (some workflowId)
    (.object [("decided_by", .string decidedBy)]) stamp

def AuditService.recordApprovalRejected (workflowId decidedBy note : String) (stamp : Stamp) :
    AuditService :=
  self.record .approvalRejected decidedBy
    ("Approval rejected for workflow " ++ workflowId ++ " by " ++ decidedBy ++ ": " ++ note)
    (some workflowId) (.object [("decided_by", .string decidedBy), ("note", .string note)]) stamp

def AuditService.recordEscalation (workflowId : Option String) (severity : Severity)
    (reason : String) (stamp : Stamp) : AuditService :=
  self.record .escalationCreated "system"
    ("Escalation created (severity=" ++ severity.debug ++ "): " ++ reason) workflowId
    (.object [("reason", .string reason), ("severity", .string severity.debug)]) stamp

def AuditService.recordEscalationResolved (escalationId resolution : String) (stamp : Stamp) :
    AuditService :=
  self.record .escalationResolved "system"
    ("Escalation " ++ escalationId ++ " resolved: " ++ resolution) none
    (.object [("escalation_id", .string escalationId), ("resolution", .string resolution)]) stamp

end Record

/-- A filter for the trail; a field that is left out filters nothing. -/
structure AuditQuery where
  workflowId : Option String
  action : Option AuditAction
  actor : Option String
  since : Option ℤ
  until_ : Option ℤ
  limit : ℕ
  deriving DecidableEq

def AuditQuery.new : AuditQuery := ⟨none, none, none, none, none, 100⟩

def AuditQuery.accepts (query : AuditQuery) (e : AuditEntry) : Bool :=
  query.workflowId.all (fun id => e.workflowId == some id) &&
    query.action.all (fun action => e.action == action) &&
    query.actor.all (fun actor => e.actor == actor) &&
    query.since.all (fun since => decide (since ≤ e.timestamp)) &&
    query.until_.all fun until_ => decide (e.timestamp ≤ until_)

def AuditService.query (self : AuditService) (query : AuditQuery) : List AuditEntry :=
  (self.entries.filter query.accepts).take query.limit

def AuditService.entriesForWorkflow (self : AuditService) (workflowId : String) :
    List AuditEntry :=
  self.query { AuditQuery.new with workflowId := some workflowId }

/-- What is returned is a prefix of the entries for the workflow. -/
theorem entriesForWorkflow_eq (self : AuditService) (workflowId : String) :
    self.entriesForWorkflow workflowId =
      (self.entries.filter fun e => e.workflowId == some workflowId).take 100 := by
  have accepts : AuditQuery.accepts { AuditQuery.new with workflowId := some workflowId } =
      fun e => e.workflowId == some workflowId := by
    funext e
    simp [AuditQuery.accepts, AuditQuery.new]
  rw [AuditService.entriesForWorkflow, AuditService.query, accepts, AuditQuery.new]

/-- The actions recorded for a workflow, oldest first. -/
def AuditService.actionsFor (self : AuditService) (workflowId : String) : List AuditAction :=
  (self.entries.filter fun e => e.workflowId == some workflowId).map AuditEntry.action

section ActionsFor

variable {self : AuditService} {workflowId other : String} {stamp : Stamp}

/-- A record adds its action to its own workflow's history and to no other. -/
theorem actionsFor_record {action : AuditAction} {actor message : String}
    {subject : Option String} {metadata : Value} :
    (self.record action actor message subject metadata stamp).actionsFor workflowId =
      self.actionsFor workflowId ++ if subject = some workflowId then [action] else [] := by
  unfold AuditService.actionsFor AuditService.record
  rw [List.filter_append, List.map_append]
  congr 1
  by_cases own : subject = some workflowId
  · simp [own]
  · simp [own]

@[simp] theorem actionsFor_created {kind : WorkflowKind} {source : String} :
    (self.recordWorkflowCreated other kind source stamp).actionsFor workflowId =
      self.actionsFor workflowId ++ if other = workflowId then [.workflowCreated] else [] := by
  simp only [AuditService.recordWorkflowCreated, actionsFor_record, Option.some.injEq]

@[simp] theorem actionsFor_started :
    (self.recordWorkflowStarted other stamp).actionsFor workflowId =
      self.actionsFor workflowId ++ if other = workflowId then [.workflowStarted] else [] := by
  simp only [AuditService.recordWorkflowStarted, actionsFor_record, Option.some.injEq]

@[simp] theorem actionsFor_completed {result : Value} :
    (self.recordWorkflowCompleted other result stamp).actionsFor workflowId =
      self.actionsFor workflowId ++ if other = workflowId then [.workflowCompleted] else [] := by
  simp only [AuditService.recordWorkflowCompleted, actionsFor_record, Option.some.injEq]

@[simp] theorem actionsFor_failed {error : String} :
    (self.recordWorkflowFailed other error stamp).actionsFor workflowId =
      self.actionsFor workflowId ++ if other = workflowId then [.workflowFailed] else [] := by
  simp only [AuditService.recordWorkflowFailed, actionsFor_record, Option.some.injEq]

@[simp] theorem actionsFor_escalation {severity : Severity} {reason : String} :
    (self.recordEscalation (some other) severity reason stamp).actionsFor workflowId =
      self.actionsFor workflowId ++ if other = workflowId then [.escalationCreated] else [] := by
  simp only [AuditService.recordEscalation, actionsFor_record, Option.some.injEq]

end ActionsFor

end BusinessOs.Core.Audit
