/- Source: app/services/guardrails.py, app/services/approval.py
   digest: Approval-gated external actions: the request, the decision, and its propagation. -/

import BusinessOs.App.Workflows

set_option autoImplicit false
set_option relaxedAutoImplicit false

namespace BusinessOs.App.Guardrails

open BusinessOs.Lib BusinessOs.Lib.UnitOfWork BusinessOs.Lib.Json.Tree
open BusinessOs.App.Models BusinessOs.App.Workflows

/-- The answer of `classify_action`. -/
structure Classification where
  riskLevel : String
  requiresApproval : Bool
  reasons : List String
  deriving DecidableEq

/-- A new approval row. -/
def openApproval (workflowId title reason : String) (proposedAction : Value)
    (approvalId : String) : HumanApproval where
  id := approvalId
  workflowId
  title
  reason
  proposedAction
  status := .opened
  decidedBy := none
  decisionNote := none
  decidedAt := none

/-- `ApprovalService.request`. -/
def request (db : Database) (workflowId title reason : String) (proposedAction : Value)
    (approvalId : String) : Database :=
  let approval := openApproval workflowId title reason proposedAction approvalId
  let db := { db with humanApprovals := db.humanApprovals ++ [approval] }
  db.record .approvalRequested ("Approval requested: " ++ title) (some workflowId) "system"
    (.object [("approval_id", .string approvalId)])

/-- What the approval of an external action proposes. -/
def proposal (actionType summary : String) (payload : Value) (classification : Classification)
    (actionId : String) : Value :=
  .object [("external_action_id", .string actionId), ("action_type", .string actionType),
    ("summary", .string summary), ("payload", payload),
    ("risk_level", .string classification.riskLevel),
    ("reasons", .array (classification.reasons.map Value.string))]

/-- `request_external_action` up to the evidence packet, whose table no decision reads. -/
def requestExternalAction (db : Database) (workflow : Option WorkflowCopy)
    (actionType summary : String) (payload : Value) (agentId : Option String)
    (classification : Classification) (actionId approvalId : String) : Database :=
  let externalAction : ExternalAction :=
    { id := actionId
      workflowId := workflow.map WorkflowCopy.id
      agentId
      actionType
      summary
      payload
      riskLevel := classification.riskLevel
      requiresApproval := classification.requiresApproval
      approvalId := none
      status := if classification.requiresApproval then .proposed else .approved }
  let db := { db with externalActions := db.externalActions ++ [externalAction] }
  match workflow with
  | none => db
  | some workflow =>
    if classification.requiresApproval then
      let db := (waitForHuman workflow).commit db
      let db := request db workflow.id ("Approve external action: " ++ summary)
        "Guardrail policy requires human approval before this action can execute."
        (proposal actionType summary payload classification actionId) approvalId
      { db with
        externalActions := Table.update ExternalAction.id db.externalActions actionId
          fun action => { action with approvalId := some approvalId } }
    else db

/-- A session's copy of an approval. -/
structure ApprovalCopy where
  id : String
  workflowId : String
  title : String
  proposedAction : Value
  status : Tracked ApprovalStatus
  decidedBy : Tracked (Option String)
  decisionNote : Tracked (Option String)
  decidedAt : Tracked (Option ℤ)
  deriving DecidableEq

def ApprovalCopy.load (row : HumanApproval) : ApprovalCopy where
  id := row.id
  workflowId := row.workflowId
  title := row.title
  proposedAction := row.proposedAction
  status := .load row.status
  decidedBy := .load row.decidedBy
  decisionNote := .load row.decisionNote
  decidedAt := .load row.decidedAt

/-- A session's copy of an external action. -/
structure ActionCopy where
  id : String
  status : Tracked ExternalActionStatus
  deriving DecidableEq

def ActionCopy.load (row : ExternalAction) : ActionCopy := ⟨row.id, .load row.status⟩

section Approval

variable (approval : ApprovalCopy)

def ApprovalCopy.flush (row : HumanApproval) : HumanApproval :=
  { row with
    status := approval.status.flush row.status
    decidedBy := approval.decidedBy.flush row.decidedBy
    decisionNote := approval.decisionNote.flush row.decisionNote
    decidedAt := approval.decidedAt.flush row.decidedAt }

def ApprovalCopy.committed : ApprovalCopy :=
  { approval with
    status := approval.status.committed
    decidedBy := approval.decidedBy.committed
    decisionNote := approval.decisionNote.committed
    decidedAt := approval.decidedAt.committed }

def ApprovalCopy.commit (db : Database) : Database :=
  { db with
    humanApprovals := Table.update HumanApproval.id db.humanApprovals approval.id approval.flush }

/-- `ApprovalService.decide` up to its first commit; it does not look at the status it replaces. -/
def decide (status : ApprovalStatus) (decidedBy : String) (decisionNote : Option String)
    (now : ℤ) : ApprovalCopy :=
  { approval with
    status := approval.status.set status
    decidedBy := approval.decidedBy.set (some decidedBy)
    decisionNote := approval.decisionNote.set decisionNote
    decidedAt := approval.decidedAt.set (some now) }

def decideRecord (decidedBy : String) : AuditLog where
  workflowId := some approval.workflowId
  action := .approvalUpdated
  actor := decidedBy
  message := "Approval " ++ approval.status.current.value ++ ": " ++ approval.title
  metadata := .object [("approval_id", .string approval.id)]

end Approval

/-- `proposed_action.get("external_action_id")`, where it names a row at all. -/
def externalActionId (proposedAction : Value) : Option String :=
  match proposedAction with
  | .object members =>
    match (members.find? fun m => m.1 == "external_action_id").map Prod.snd with
    | some (.string id) => if id = "" then none else some id
    | _ => none
  | _ => none

/-- What `sync_external_action_decision` sets before its commit. -/
def syncDecision (approval : ApprovalCopy) (action : ActionCopy) : ActionCopy :=
  match approval.status.current with
  | .approved => { action with status := action.status.set .approved }
  | .rejected => { action with status := action.status.set .rejected }
  | .opened => action

def ActionCopy.flush (action : ActionCopy) (row : ExternalAction) : ExternalAction :=
  { row with status := action.status.flush row.status }

def ActionCopy.commit (action : ActionCopy) (db : Database) : Database :=
  { db with
    externalActions := Table.update ExternalAction.id db.externalActions action.id action.flush }

section Lookup

variable (db : Database) (approval : ApprovalCopy) (action : ActionCopy) (id : String)

/-- The commit of an approval's copy writes that row and no external action. -/
theorem approval_commit :
    (approval.commit db).approval approval.id = (db.approval approval.id).map approval.flush ∧
      (approval.commit db).action id = db.action id := by
  refine ⟨?_, rfl⟩
  show Table.get _ (Table.update _ _ _ _) _ = _
  exact Table.get_update_self fun _ => rfl

theorem action_commit :
    (action.commit db).action action.id = (db.action action.id).map action.flush ∧
      (action.commit db).approval id = db.approval id := by
  refine ⟨?_, rfl⟩
  show Table.get _ (Table.update _ _ _ _) _ = _
  exact Table.get_update_self fun _ => rfl

end Lookup

theorem externalActionId_proposal {actionType summary : String} {payload : Value}
    {classification : Classification} {actionId : String} (named : actionId ≠ "") :
    externalActionId (proposal actionType summary payload classification actionId) =
      some actionId := by
  simp [externalActionId, proposal, named]

/-- A gated request leaves an open approval that names a proposed action. -/
theorem requestExternalAction_rows {db : Database} (workflow : WorkflowCopy)
    (actionType summary : String) (payload : Value) (agentId : Option String)
    {classification : Classification} {actionId approvalId : String}
    (gated : classification.requiresApproval = true) (newAction : db.action actionId = none)
    (newApproval : db.approval approvalId = none) :
    let after := requestExternalAction db (some workflow) actionType summary payload agentId
      classification actionId approvalId
    (∃ approval, after.approval approvalId = some approval ∧ approval.status = .opened ∧
      approval.proposedAction = proposal actionType summary payload classification actionId) ∧
    ∃ action, after.action actionId = some action ∧ action.status = .proposed := by
  obtain ⟨riskLevel, requiresApproval, reasons⟩ := classification
  obtain rfl : requiresApproval = true := gated
  intro after
  have approvals : after.humanApprovals = db.humanApprovals ++ [openApproval workflow.id
      ("Approve external action: " ++ summary)
      "Guardrail policy requires human approval before this action can execute."
      (proposal actionType summary payload ⟨riskLevel, true, reasons⟩ actionId) approvalId] := rfl
  constructor
  · have found : after.approval approvalId = some (openApproval workflow.id
        ("Approve external action: " ++ summary)
        "Guardrail policy requires human approval before this action can execute."
        (proposal actionType summary payload ⟨riskLevel, true, reasons⟩ actionId)
        approvalId) := by
      rw [Database.approval, approvals, Table.get_append]
      show (db.approval approvalId).or _ = _
      rw [newApproval, Option.none_or]
      exact if_pos rfl
    exact ⟨_, found, rfl, rfl⟩
  · have keeps : ∀ action : ExternalAction,
        { action with approvalId := some approvalId }.id = action.id := fun _ => rfl
    have found : after.action actionId = some
        ⟨actionId, some workflow.id, agentId, actionType, summary, payload, riskLevel, true,
          some approvalId, .proposed⟩ := by
      show Table.get _ (Table.update _ (db.externalActions ++ [_]) _ _) _ = _
      rw [Table.get_update_self keeps, Table.get_append]
      show Option.map _ ((db.action actionId).or _) = _
      rw [newAction, Option.none_or]
      simp
    exact ⟨_, found, rfl⟩

end BusinessOs.App.Guardrails
