/- Source: app/models.py, app/db.py
   digest: The database rows of workflows, approvals, external actions and their records. -/

import BusinessOs.Lib.Json.Tree
import BusinessOs.Lib.Table
import Mathlib.Data.Int.Notation

set_option autoImplicit false
set_option relaxedAutoImplicit false

namespace BusinessOs.App.Models

open BusinessOs.Lib BusinessOs.Lib.Json.Tree

inductive WorkflowStatus
  | pending | running | waitingForHuman | completed | failed | cancelled
  deriving DecidableEq, Repr

inductive ApprovalStatus
  | opened | approved | rejected
  deriving DecidableEq, Repr

def ApprovalStatus.value : ApprovalStatus → String
  | .opened => "open"
  | .approved => "approved"
  | .rejected => "rejected"

inductive ExternalActionStatus
  | proposed | approved | rejected | executed | blocked
  deriving DecidableEq, Repr

inductive AuditAction
  | workflowCreated | workflowStarted | workflowCompleted | workflowFailed
  | taskStarted | taskCompleted | taskFailed
  | approvalRequested | approvalUpdated
  | escalationCreated
  | integrationCalled
  | departmentCreated | departmentUpdated | departmentPaused | departmentKilled
  | agentSpawned
  | skillRegistered | skillAssigned
  | externalActionRequested | externalActionBlocked
  | evidencePacketRecorded
  | securityEventCreated
  | circuitBreakerOpened
  deriving DecidableEq, Repr

/-- The JSON number of an integer column. -/
def int (n : ℤ) : Value :=
  if 0 ≤ n then .number (.posInt (UInt64.ofNat n.toNat))
  else if negative : Int64.ofInt n < 0 then .number (.negInt (Int64.ofInt n) negative)
  else .null

/-- `updated_at` is left out: it is written with every change and read by no operation here. -/
structure Workflow where
  id : String
  kind : String
  status : WorkflowStatus
  title : String
  source : String
  payload : Value
  result : Value
  attempts : ℤ
  maxAttempts : ℤ
  createdAt : ℤ
  deriving DecidableEq

/-- A row as `Workflow(kind=…, title=…, payload=…, source=…)` is inserted. -/
def Workflow.new (id kind title : String) (payload : Value) (source : String) (createdAt : ℤ) :
    Workflow where
  id
  kind
  status := .pending
  title
  source
  payload
  result := .object []
  attempts := 0
  maxAttempts := 3
  createdAt

structure HumanApproval where
  id : String
  workflowId : String
  title : String
  reason : String
  proposedAction : Value
  status : ApprovalStatus
  decidedBy : Option String
  decisionNote : Option String
  decidedAt : Option ℤ
  deriving DecidableEq

structure ExternalAction where
  id : String
  workflowId : Option String
  agentId : Option String
  actionType : String
  summary : String
  payload : Value
  riskLevel : String
  requiresApproval : Bool
  approvalId : Option String
  status : ExternalActionStatus
  deriving DecidableEq

structure AuditLog where
  workflowId : Option String
  action : AuditAction
  actor : String
  message : String
  metadata : Value
  deriving DecidableEq

structure Escalation where
  id : String
  workflowId : Option String
  severity : String
  owner : String
  reason : String
  context : Value
  deriving DecidableEq

/-- The committed rows, each table in insertion order. -/
structure Database where
  workflows : List Workflow
  humanApprovals : List HumanApproval
  externalActions : List ExternalAction
  auditLogs : List AuditLog
  escalations : List Escalation
  deriving DecidableEq

def Database.empty : Database := ⟨[], [], [], [], []⟩

section Rows

variable (db : Database)

def Database.workflow (id : String) : Option Workflow := Table.get Workflow.id db.workflows id

def Database.approval (id : String) : Option HumanApproval :=
  Table.get HumanApproval.id db.humanApprovals id

def Database.action (id : String) : Option ExternalAction :=
  Table.get ExternalAction.id db.externalActions id

/-- `AuditService.record`, one commit. -/
def Database.record (action : AuditAction) (message : String) (workflowId : Option String)
    (actor : String) (metadata : Value) : Database :=
  { db with auditLogs := db.auditLogs ++ [{ workflowId, action, actor, message, metadata }] }

end Rows

end BusinessOs.App.Models
