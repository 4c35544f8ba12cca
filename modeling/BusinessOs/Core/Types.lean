/- Source: rust/src/types.rs
   digest: The records that the engine's services share. -/

import BusinessOs.Lib.Json.Tree
import Mathlib.Data.Int.Notation

set_option autoImplicit false
set_option relaxedAutoImplicit false

namespace BusinessOs.Core.Types

open BusinessOs.Lib.Json.Tree

inductive WorkflowStatus
  | pending | running | waitingForHuman | completed | failed | cancelled
  deriving DecidableEq, Repr

inductive TaskStatus
  | queued | running | completed | failed | escalated
  deriving DecidableEq, Repr

inductive ApprovalStatus
  | opened | approved | rejected
  deriving DecidableEq, Repr

inductive ApprovalDecision
  | approved | rejected
  deriving DecidableEq, Repr

inductive AuditAction
  | workflowCreated | workflowStarted | workflowCompleted | workflowFailed | workflowCancelled
  | taskStarted | taskCompleted | taskFailed
  | approvalRequested | approvalGranted | approvalRejected
  | escalationCreated | escalationResolved
  | leadScored | rateLimitExceeded | circuitBreakerTripped | circuitBreakerReset
  | configChanged | agentRegistered | agentDispatched | secretRotated
  deriving DecidableEq, Repr

inductive WorkflowKind
  | leadQualification | clientOnboarding | deliveryMonitoring | financeOperations
  | knowledgeCommunication
  deriving DecidableEq, Repr

/-- `{:?}` of a kind. -/
def WorkflowKind.debug : WorkflowKind → String
  | .leadQualification => "LeadQualification"
  | .clientOnboarding => "ClientOnboarding"
  | .deliveryMonitoring => "DeliveryMonitoring"
  | .financeOperations => "FinanceOperations"
  | .knowledgeCommunication => "KnowledgeCommunication"

inductive Severity
  | low | medium | high | critical
  deriving DecidableEq, Repr

/-- `{:?}` of a severity. -/
def Severity.debug : Severity → String
  | .low => "Low"
  | .medium => "Medium"
  | .high => "High"
  | .critical => "Critical"

/-- A workflow instance; instants are nanoseconds. -/
structure Workflow where
  id : String
  kind : WorkflowKind
  status : WorkflowStatus
  payload : Value
  result : Option Value
  error : Option String
  attempts : UInt32
  maxAttempts : UInt32
  source : String
  createdAt : ℤ
  updatedAt : ℤ
  completedAt : Option ℤ
  deriving DecidableEq

/-- `Workflow::new`, with its defaults. -/
def Workflow.new (id : String) (maxAttempts : UInt32) (now : ℤ) : Workflow where
  id
  kind := .leadQualification
  status := .pending
  payload := .null
  result := none
  error := none
  attempts := 0
  maxAttempts
  source := ""
  createdAt := now
  updatedAt := now
  completedAt := none

/-- A task that an agent records in its context. -/
structure AgentTask where
  id : String
  workflowId : String
  agentName : String
  toolName : String
  status : TaskStatus
  input : Value
  output : Option Value
  error : Option String
  startedAt : Option ℤ
  completedAt : Option ℤ
  durationMs : Option UInt64
  updatedAt : ℤ
  deriving DecidableEq

structure HumanApproval where
  id : String
  workflowId : String
  title : String
  reason : String
  proposedAction : Value
  status : ApprovalStatus
  decidedBy : Option String
  decision : Option ApprovalDecision
  decisionNote : Option String
  note : Option String
  createdAt : ℤ
  requestedAt : ℤ
  decidedAt : Option ℤ
  updatedAt : ℤ
  deriving DecidableEq

/-- A new open approval request. -/
def HumanApproval.new (id workflowId title reason : String) (proposedAction : Value) (now : ℤ) :
    HumanApproval where
  id
  workflowId
  title
  reason
  proposedAction
  status := .opened
  decidedBy := none
  decision := none
  decisionNote := none
  note := none
  createdAt := now
  requestedAt := now
  decidedAt := none
  updatedAt := now

structure AuditEntry where
  id : String
  workflowId : Option String
  action : AuditAction
  actor : String
  message : String
  metadata : Value
  timestamp : ℤ
  deriving DecidableEq

end BusinessOs.Core.Types
