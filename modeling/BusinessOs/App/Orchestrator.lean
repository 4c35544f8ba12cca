/- Source: app/agents/orchestrator.py, app/services/guardrails.py (request_external_action),
   app/services/approval.py (request), app/services/evidence.py
   digest: run_workflow as the program of its session, for any behaviour of the agent. -/

import BusinessOs.App.Sessions

set_option autoImplicit false
set_option relaxedAutoImplicit false

namespace BusinessOs.App.Orchestrator

open BusinessOs.Lib BusinessOs.Lib.UnitOfWork BusinessOs.Lib.Json.Tree
open BusinessOs.App.Models BusinessOs.App.Workflows BusinessOs.App.Company
open BusinessOs.App.Guardrails BusinessOs.App.Sessions

/-- A statement of an agent that asks no human: it leaves the workflow and the approvals alone. -/
def quiet : Statement → Bool
  | .markRunning | .finish _ | .waitForHuman | .add (.approval _) => false
  | _ => true

theorem quiet_elsewhere : quiet .elsewhere = true := rfl

theorem quiet_commit : quiet .commit = true := rfl

/-- An external action that an agent proposes. -/
structure Proposal where
  actionType : String
  summary : String
  payload : Value
  deriving DecidableEq

/-- The generated ids and the digest of one request. -/
structure RequestIds where
  actionId : String
  approvalId : String
  packetId : String
  contextHash : String
  deriving DecidableEq

def approvalRecord (workflowId title approvalId : String) : AuditLog where
  workflowId := some workflowId
  action := .approvalRequested
  actor := "system"
  message := "Approval requested: " ++ title
  metadata := .object [("approval_id", .string approvalId)]

/-- `ApprovalService.request`, behind the commit of the waiting status. -/
def askHuman (workflowId title reason : String) (proposedAction : Value) (approvalId : String) :
    List Statement :=
  [.waitForHuman, .commit,
    .add (.approval (openApproval workflowId title reason proposedAction approvalId)), .commit,
    .add (.audit (approvalRecord workflowId title approvalId)), .commit]

def proposedAction (workflowId : String) (agentId : Option String) (proposal : Proposal)
    (classification : Classification) (actionId : String) : ExternalAction where
  id := actionId
  workflowId := some workflowId
  agentId
  actionType := proposal.actionType
  summary := proposal.summary
  payload := proposal.payload
  riskLevel := classification.riskLevel
  requiresApproval := classification.requiresApproval
  approvalId := none
  status := if classification.requiresApproval then .proposed else .approved

/-- Two digests and the evidence packet, whose table is left out, with the two records behind it. -/
def recordPacket (workflowId : String) (agentId : Option String) (proposal : Proposal)
    (classification : Classification) (ids : RequestIds) : List Statement :=
  let approvalId : Value :=
    if classification.requiresApproval then .string ids.approvalId else .null
  let status :=
    if classification.requiresApproval then "waiting_for_approval" else "approved_to_execute"
  [.elsewhere, .elsewhere, .elsewhere, .commit,
    .add (.audit
      { workflowId := some workflowId
        action := .evidencePacketRecorded
        actor := "system"
        message := "Evidence packet recorded: " ++ proposal.summary
        metadata := .object [("evidence_packet_id", .string ids.packetId),
          ("external_action_id", .string ids.actionId),
          ("context_hash", .string ids.contextHash), ("status", .string status)] }), .commit,
    .add (.audit
      { workflowId := some workflowId
        action := .externalActionRequested
        actor := "system"
        message := "External action proposed: " ++ proposal.summary
        metadata := .object [("external_action_id", .string ids.actionId),
          ("agent_id", (agentId.map Value.string).getD .null),
          ("risk_level", .string classification.riskLevel),
          ("requires_approval", .bool classification.requiresApproval),
          ("approval_id", approvalId), ("evidence_packet_id", .string ids.packetId)] }), .commit]

/-- `request_external_action` for a workflow; the first step is the classifier's process. -/
def requestExternalAction (workflowId : String) (agentId : Option String) (proposal : Proposal)
    (classification : Classification) (ids : RequestIds) : List Statement :=
  [.elsewhere,
    .add (.action (proposedAction workflowId agentId proposal classification ids.actionId)),
    .commit] ++
  (if classification.requiresApproval then
    askHuman workflowId ("Approve external action: " ++ proposal.summary)
      "Guardrail policy requires human approval before this action can execute."
      (Guardrails.proposal proposal.actionType proposal.summary proposal.payload classification
        ids.actionId) ids.approvalId ++
    [.link ids.actionId ids.approvalId, .commit]
  else []) ++
  recordPacket workflowId agentId proposal classification ids

/-- What an agent does: work that asks nobody, a request for approval, a proposed action. -/
inductive AgentStep
  | work (statement : Statement) (quiet : quiet statement = true)
  | ask (title reason : String) (proposedAction : Value) (approvalId : String)
  | propose (agentId : Option String) (proposal : Proposal) (classification : Classification)
    (ids : RequestIds)
  deriving DecidableEq

def AgentStep.statements (workflowId : String) : AgentStep → List Statement
  | .work statement _ => [statement]
  | .ask title reason proposedAction approvalId =>
    askHuman workflowId title reason proposedAction approvalId
  | .propose agentId proposal classification ids =>
    Orchestrator.requestExternalAction workflowId agentId proposal classification ids

/-- An agent's call returns after its steps, or raises after some of their statements and leaves the
session usable. An exception out of a commit's own flush is none of these: see `FlushFailures`. -/
inductive Behaviour
  | returns (steps : List AgentStep) (result : Value)
  | raises (steps : List AgentStep) (cut : ℕ) (exc : String)
  deriving DecidableEq

def Behaviour.statements (workflowId : String) : Behaviour → List Statement
  | .returns steps _ => steps.flatMap (AgentStep.statements workflowId)
  | .raises steps cut _ => (steps.flatMap (AgentStep.statements workflowId)).take cut

def Behaviour.outcome : Behaviour → Except String Value
  | .returns _ result => .ok result
  | .raises _ _ exc => .error exc

def row : Record → Row
  | .audit entry => .audit entry
  | .escalation entry => .escalation entry

/-- The arguments of `WorkflowService.create`, with the generated id and the clock reading. -/
structure Creation where
  id : String
  kind : String
  title : String
  payload : Value
  source : String
  createdAt : ℤ
  deriving DecidableEq

def Creation.row (creation : Creation) : Workflow :=
  Workflow.new creation.id creation.kind creation.title creation.payload creation.source
    creation.createdAt

/-- `WorkflowService.create`, both commits. -/
def createWorkflow (creation : Creation) (db : CompanyDatabase) : CompanyDatabase :=
  { db with
    workflows := db.workflows ++ [creation.row]
    auditLogs := db.auditLogs ++
      [{ workflowId := some creation.id
         action := .workflowCreated
         actor := "system"
         message := "Workflow created: " ++ creation.title
         metadata := .object
           [("kind", .string creation.kind), ("source", .string creation.source)] }] }

section RunWorkflow

variable (workflow : WorkflowCopy) (behaviour : Behaviour) (escalationId : String)

/-- `mark_running`. -/
def opening : List Statement :=
  [.markRunning, .commit, .add (row (startedRecord workflow)), .commit]

/-- What follows the agent's call, for the copy that it leaves. -/
def closing (outcome : Except String Value) : List Statement :=
  [.finish outcome, .commit] ++
    (finishRecords workflow escalationId outcome).flatMap fun record =>
      [.add (row record), .commit]

/-- The statements of `run_workflow`, where the store flushes every commit; it raises at once for a
kind without an agent. -/
def program : List Statement :=
  if workflow.supported then
    let before := opening workflow ++ behaviour.statements workflow.id
    before ++ closing (copyAfter workflow before) escalationId behaviour.outcome
  else []

def runWorkflow (db : CompanyDatabase) : CompanyDatabase :=
  (execute (Session.start db workflow) (program workflow behaviour escalationId)).db

end RunWorkflow

/-- The steps of an agent leave the orchestrator's assignments to the orchestrator. -/
theorem step_byAgent {workflowId : String} {step : AgentStep} :
    ∀ statement ∈ step.statements workflowId, statement.byAgent = true := by
  cases step with
  | work statement isQuiet =>
    intro other member
    obtain rfl := List.mem_singleton.mp member
    cases other with
    | markRunning => cases isQuiet
    | finish outcome => cases isQuiet
    | _ => rfl
  | ask title reason proposedAction approvalId =>
    simp [AgentStep.statements, askHuman, Statement.byAgent]
  | propose agentId proposal classification ids =>
    cases gated : classification.requiresApproval <;>
      simp [AgentStep.statements, requestExternalAction, askHuman, recordPacket, gated,
        Statement.byAgent]

theorem statements_byAgent (workflowId : String) (behaviour : Behaviour) :
    ∀ statement ∈ behaviour.statements workflowId, statement.byAgent = true := by
  have all : ∀ steps : List AgentStep, ∀ statement ∈ steps.flatMap
      (AgentStep.statements workflowId), statement.byAgent = true := by
    intro steps statement member
    obtain ⟨step, _, inside⟩ := List.mem_flatMap.mp member
    exact step_byAgent statement inside
  cases behaviour with
  | returns steps result => exact all steps
  | raises steps cut exc =>
    exact fun statement member => all steps statement (List.mem_of_mem_take member)

/-- An approval of a workflow that nobody has decided. -/
def OpenFor (workflowId : String) (approval : HumanApproval) : Prop :=
  approval.workflowId = workflowId ∧ approval.status = .opened

instance (workflowId : String) (approval : HumanApproval) :
    Decidable (OpenFor workflowId approval) :=
  inferInstanceAs (Decidable (_ ∧ _))

/-- Some approval of the workflow is open. -/
def SomeoneAsked (id : String) (db : CompanyDatabase) : Prop :=
  ∃ approval ∈ db.humanApprovals, OpenFor id approval

theorem rowsIn_mem {α : Type} {pick : Row → Option α} {program : List Statement} {a : α}
    (row : Row) (member : .add row ∈ program) (picked : pick row = some a) :
    a ∈ rowsIn pick program :=
  List.mem_filterMap.mpr ⟨.add row, member, picked⟩

/-- A step that sets the workflow to waiting also opens an approval for it. -/
theorem step_asks {workflowId : String} {step : AgentStep}
    (asks : .waitForHuman ∈ step.statements workflowId) :
    ∃ approval, OpenFor workflowId approval ∧
      .add (.approval approval) ∈ step.statements workflowId := by
  cases step with
  | work statement isQuiet =>
    obtain rfl := List.mem_singleton.mp asks
    cases isQuiet
  | ask title reason proposedAction approvalId =>
    refine ⟨openApproval workflowId title reason proposedAction approvalId, ⟨rfl, rfl⟩, ?_⟩
    simp [AgentStep.statements, askHuman]
  | propose agentId proposal classification ids =>
    cases gated : classification.requiresApproval with
    | false =>
      simp [AgentStep.statements, requestExternalAction, recordPacket, gated] at asks
    | true =>
      refine ⟨openApproval workflowId ("Approve external action: " ++ proposal.summary)
        "Guardrail policy requires human approval before this action can execute."
        (Guardrails.proposal proposal.actionType proposal.summary proposal.payload classification
          ids.actionId) ids.approvalId, ⟨rfl, rfl⟩, ?_⟩
      simp [AgentStep.statements, requestExternalAction, askHuman, gated]

/-- An agent that returns with the workflow waiting has opened an approval for it. -/
theorem returns_asks {workflowId : String} {steps : List AgentStep} {result : Value}
    (asks : .waitForHuman ∈ (Behaviour.returns steps result).statements workflowId) :
    ∃ approval ∈ rowsIn Row.approval? ((Behaviour.returns steps result).statements workflowId),
      OpenFor workflowId approval := by
  obtain ⟨step, member, inside⟩ := List.mem_flatMap.mp asks
  obtain ⟨approval, isOpen, added⟩ := step_asks inside
  refine ⟨approval, rowsIn_mem (.approval approval) ?_ rfl, isOpen⟩
  exact List.mem_flatMap.mpr ⟨step, member, added⟩

/-! The copy of the workflow along the program. -/

section Copies

variable {row : Workflow} {workflow : WorkflowCopy} {outcome : Except String Value}

/-- The status that `run_workflow` leaves. -/
def finalStatus (row : Workflow) (behaviour : Behaviour) : WorkflowStatus :=
  match behaviour.outcome with
  | .ok _ =>
    if .waitForHuman ∈ behaviour.statements row.id then .waitingForHuman else .completed
  | .error _ => if row.attempts + 1 < row.maxAttempts then .pending else .failed

/-- A workflow goes back into the queue only with an attempt left. -/
theorem finalStatus_pending {behaviour : Behaviour}
    (pending : finalStatus row behaviour = .pending) : row.attempts + 1 < row.maxAttempts := by
  unfold finalStatus at pending
  cases outcome : behaviour.outcome with
  | ok result =>
    simp only [outcome] at pending
    split at pending <;> contradiction
  | error exc =>
    simp only [outcome] at pending
    by_contra full
    rw [if_neg full] at pending
    contradiction

theorem opening_copy (row : Workflow) :
    copyAfter (.load row) (opening (.load row)) = { WorkflowCopy.load row with
      status := .load .running
      attempts := .load (row.attempts + 1) } := rfl

theorem before_copy (row : Workflow) {agent : List Statement}
    (byAgent : ∀ statement ∈ agent, statement.byAgent = true) :
    let copy := copyAfter (.load row) (opening (.load row) ++ agent)
    copy.attempts.current = row.attempts + 1 ∧ copy.maxAttempts = row.maxAttempts ∧
      copy.status.current =
        if .waitForHuman ∈ agent then .waitingForHuman else .running := by
  intro copy
  have split : copy = copyAfter (copyAfter (.load row) (opening (.load row))) agent :=
    copyAfter_append _ _ _
  rw [split, opening_copy]
  exact ⟨agent_attempts byAgent, (agent_fixed agent).1, agent_status byAgent⟩

/-- Records change nothing in the copy but commit it. -/
theorem records_copy (workflow : WorkflowCopy) (records : List Record) :
    (copyAfter workflow (records.flatMap fun record => [.add (Orchestrator.row record), .commit])
      ).status.current = workflow.status.current ∧
    (copyAfter workflow (records.flatMap fun record => [.add (Orchestrator.row record), .commit])
      ).attempts.current = workflow.attempts.current := by
  induction records generalizing workflow with
  | nil => exact ⟨rfl, rfl⟩
  | cons record records ih =>
    rw [List.flatMap_cons, copyAfter_append]
    exact ih _

theorem closing_copy (workflow left : WorkflowCopy) (escalationId : String) :
    (copyAfter workflow (closing left escalationId outcome)).status.current =
        (finish workflow outcome).status.current ∧
      (copyAfter workflow (closing left escalationId outcome)).attempts.current =
        workflow.attempts.current := by
  unfold closing
  rw [copyAfter_append]
  obtain ⟨status, attempts⟩ := records_copy (copyAfter workflow [.finish outcome, .commit])
    (finishRecords left escalationId outcome)
  rw [status, attempts]
  refine ⟨rfl, ?_⟩
  show (finish workflow outcome).attempts.current = _
  rw [finish_attempts]

/-- The rows that follow the outcome are its records. -/
theorem closing_rows {α : Type} (pick : Row → Option α) (left : WorkflowCopy)
    (escalationId : String) (outcome : Except String Value) :
    rowsIn pick (closing left escalationId outcome) =
      (finishRecords left escalationId outcome).filterMap fun record =>
        pick (Orchestrator.row record) := by
  have records : ∀ records : List Record, rowsIn pick (records.flatMap fun record =>
      [.add (Orchestrator.row record), .commit]) =
      records.filterMap fun record => pick (Orchestrator.row record) := by
    intro records
    induction records with
    | nil => rfl
    | cons record records ih =>
      rw [List.flatMap_cons, rowsIn_append, ih, List.filterMap_cons]
      cases picked : pick (Orchestrator.row record) <;> simp [rowsIn, picked]
  unfold closing
  rw [rowsIn_append, records]
  rfl

theorem finish_status (workflow : WorkflowCopy) (outcome : Except String Value) :
    (finish workflow outcome).status.current = match outcome with
      | .ok _ =>
        if workflow.status.current = .waitingForHuman then .waitingForHuman else .completed
      | .error _ =>
        if workflow.attempts.current < workflow.maxAttempts then .pending else .failed := by
  cases outcome with
  | ok result =>
    by_cases waiting : workflow.status.current = .waitingForHuman
    · simp [finish, waiting]
    · simp [finish, waiting, markCompleted, Tracked.set]
  | error exc =>
    by_cases retry : workflow.attempts.current < workflow.maxAttempts
    · simp [finish, retry, Tracked.set]
    · simp [finish, retry, markFailed, Tracked.set]

/-- The program ends with a commit. -/
theorem settled_closing (first : List Statement) (left : WorkflowCopy) (escalationId : String) :
    settled (first ++ closing left escalationId outcome) =
      first ++ closing left escalationId outcome := by
  have last : ∃ body, closing left escalationId outcome = body ++ [.commit] := by
    unfold closing
    rcases List.eq_nil_or_concat (finishRecords left escalationId outcome) with
      none_ | ⟨records, record, some_⟩
    · exact ⟨[.finish outcome], by rw [none_]; rfl⟩
    · rw [some_, List.concat_eq_append, List.flatMap_append]
      exact ⟨[.finish outcome, .commit] ++ (records.flatMap fun record =>
        [.add (Orchestrator.row record), .commit]) ++ [.add (Orchestrator.row record)], by simp⟩
  obtain ⟨body, same⟩ := last
  rw [same, ← List.append_assoc, settled_commit]

end Copies

/-! What one call of `run_workflow` leaves. -/

section Final

variable {db : CompanyDatabase} {row : Workflow} (behaviour : Behaviour) (escalationId : String)

theorem attached_start (found : db.workflow row.id = some row) :
    Attached (Session.start db (.load row)) := ⟨row, found, load_readFrom⟩

/-- The row of the workflow after a program that began with its copy. -/
theorem start_row (found : db.workflow row.id = some row) (program : List Statement) :
    ∃ next, (execute (Session.start db (.load row)) program).db.workflow row.id = some next ∧
      next.status = (copyAfter (.load row) (settled program)).status.current ∧
      next.attempts = (copyAfter (.load row) (settled program)).attempts.current ∧
      next.maxAttempts = row.maxAttempts ∧ next.kind = row.kind := by
  obtain ⟨next, present, status, attempts, maxAttempts, kind⟩ :=
    ((attached_start found).execute program).row
  have copy : (execute (Session.start db (.load row)) program).workflow =
      copyAfter (.load row) program := execute_workflow
  have fixed : (copyAfter (.load row) program).maxAttempts = row.maxAttempts ∧
      (copyAfter (.load row) program).kind = row.kind ∧
      (copyAfter (.load row) program).title = row.title := agent_fixed program
  rw [copy] at present status attempts maxAttempts kind
  rw [copyAfter_id] at present
  refine ⟨next, present, ?_, ?_, maxAttempts.trans fixed.1, kind.trans fixed.2.1⟩
  · rw [status, loaded_status rfl]
  · rw [attempts, loaded_attempts rfl]

theorem program_supported (supported : (WorkflowCopy.load row).supported = true) :
    program (.load row) behaviour escalationId =
      opening (.load row) ++ behaviour.statements row.id ++
        closing (copyAfter (.load row) (opening (.load row) ++ behaviour.statements row.id))
          escalationId behaviour.outcome := by
  unfold program
  rw [if_pos supported]
  rfl

theorem program_status (supported : (WorkflowCopy.load row).supported = true) :
    (copyAfter (.load row) (settled (program (.load row) behaviour escalationId))
      ).status.current = finalStatus row behaviour := by
  obtain ⟨attempts, maxAttempts, status⟩ :=
    before_copy row (statements_byAgent row.id behaviour)
  rw [program_supported behaviour escalationId supported, settled_closing, copyAfter_append,
    (closing_copy _ _ _).1, finish_status, attempts, maxAttempts, status]
  unfold finalStatus
  cases behaviour.outcome with
  | ok result => by_cases asked : .waitForHuman ∈ behaviour.statements row.id <;> simp [asked]
  | error exc => rfl

theorem program_attempts (supported : (WorkflowCopy.load row).supported = true) :
    (copyAfter (.load row) (settled (program (.load row) behaviour escalationId))
      ).attempts.current = row.attempts + 1 := by
  obtain ⟨attempts, _, _⟩ := before_copy row (statements_byAgent row.id behaviour)
  rw [program_supported behaviour escalationId supported, settled_closing, copyAfter_append,
    (closing_copy _ _ _).2, attempts]

/-- The row of the workflow after the call. -/
theorem runWorkflow_row (found : db.workflow row.id = some row)
    (supported : (WorkflowCopy.load row).supported = true) :
    ∃ next, (runWorkflow (.load row) behaviour escalationId db).workflow row.id = some next ∧
      next.status = finalStatus row behaviour ∧ next.attempts = row.attempts + 1 ∧
      next.maxAttempts = row.maxAttempts ∧ next.kind = row.kind := by
  obtain ⟨next, present, status, attempts, maxAttempts, kind⟩ :=
    start_row found (program (.load row) behaviour escalationId)
  refine ⟨next, present, ?_, ?_, maxAttempts, kind⟩
  · rw [status, program_status behaviour escalationId supported]
  · rw [attempts, program_attempts behaviour escalationId supported]

/-- One row of the table changes. -/
theorem runWorkflow_rows (db : CompanyDatabase) (row : Workflow) (behaviour : Behaviour)
    (escalationId : String) : ∃ change : Workflow → Workflow, (∀ row, (change row).id = row.id) ∧
    (runWorkflow (.load row) behaviour escalationId db).workflows =
      Table.update Workflow.id db.workflows row.id change :=
  execute_workflows _ _

/-- A table that the orchestrator itself adds nothing to grows by the agent's rows. -/
theorem runWorkflow_grows {α : Type} {table : CompanyDatabase → List α}
    {queue : Pending → List α} {pick : Row → Option α} (grows : Grows table queue pick)
    (silent : ∀ record, pick (Orchestrator.row record) = none) (db : CompanyDatabase)
    {row : Workflow} (behaviour : Behaviour) (escalationId : String)
    (supported : (WorkflowCopy.load row).supported = true) :
    table (runWorkflow (.load row) behaviour escalationId db) =
      table db ++ rowsIn pick (behaviour.statements row.id) := by
  have rows : table (runWorkflow (.load row) behaviour escalationId db) =
      table db ++ rowsIn pick (settled (program (.load row) behaviour escalationId)) :=
    grows.committed grows.none
  have first : rowsIn pick (opening (.load row)) = [] := by
    simp [opening, rowsIn, silent]
  have last : ∀ records : List Record,
      records.filterMap (fun record => pick (Orchestrator.row record)) = [] := by
    intro records
    exact List.filterMap_eq_nil_iff.mpr fun record _ => silent record
  rw [rows, program_supported behaviour escalationId supported, settled_closing, rowsIn_append,
    rowsIn_append, first, closing_rows, last, List.nil_append, List.append_nil]

/-- The approvals that the agent asked for are added, and no others. -/
theorem runWorkflow_approvals (db : CompanyDatabase) {row : Workflow} (behaviour : Behaviour)
    (escalationId : String) (supported : (WorkflowCopy.load row).supported = true) :
    (runWorkflow (.load row) behaviour escalationId db).humanApprovals =
      db.humanApprovals ++ rowsIn Row.approval? (behaviour.statements row.id) := by
  refine runWorkflow_grows approvals_grow ?_ db behaviour escalationId supported
  intro record
  cases record <;> rfl

/-- A workflow that is left waiting has an open approval. -/
theorem finalStatus_waiting {behaviour : Behaviour}
    (waiting : finalStatus row behaviour = .waitingForHuman) :
    ∃ approval ∈ rowsIn Row.approval? (behaviour.statements row.id), OpenFor row.id approval := by
  cases behaviour with
  | returns steps result =>
    by_cases asks : .waitForHuman ∈ (Behaviour.returns steps result).statements row.id
    · exact returns_asks asks
    · simp [finalStatus, Behaviour.outcome, asks] at waiting
  | raises steps cut exc =>
    simp only [finalStatus, Behaviour.outcome] at waiting
    split at waiting <;> contradiction

/-- Every other workflow's row stays. -/
theorem runWorkflow_of_ne {id : String} (other : id ≠ row.id) :
    (runWorkflow (.load row) behaviour escalationId db).workflow id = db.workflow id :=
  execute_of_ne other

/-- Without an agent for the kind nothing happens. -/
theorem runWorkflow_unsupported (kind : (WorkflowCopy.load row).supported = false) :
    runWorkflow (.load row) behaviour escalationId db = db := by
  unfold runWorkflow program
  rw [kind]
  rfl

end Final

/-! The statements of `request_external_action` do what its model on the tables does. -/

section Request

variable (workflow : WorkflowCopy)

@[simp] theorem committed_committed : workflow.committed.committed = workflow.committed := rfl

@[simp] theorem committed_id : workflow.committed.id = workflow.id := rfl

/-- A copy without a change writes nothing. -/
@[simp] theorem committed_flush (rows : List Workflow) (id : String) :
    Table.update Workflow.id rows id workflow.committed.flush = rows := by
  have same : workflow.committed.flush = fun row => row := by
    funext row
    simp [WorkflowCopy.committed, WorkflowCopy.flush, Tracked.committed, Tracked.flush]
  simp [same, Table.update]

/-- The three tables that a request writes, for a session that has committed its changes. -/
theorem request_tables (s : Session) (saved : s.workflow = workflow.committed)
    (written : s.added = .none) (linked : s.links = []) (agentId : Option String)
    (proposal : Proposal) (classification : Classification) (ids : RequestIds) :
    let after := (execute s
      (requestExternalAction workflow.id agentId proposal classification ids)).db
    let expected := Guardrails.requestExternalAction s.db.toDatabase (some workflow.committed)
      proposal.actionType proposal.summary proposal.payload agentId classification
      ids.actionId ids.approvalId
    after.workflows = expected.workflows ∧ after.humanApprovals = expected.humanApprovals ∧
      after.externalActions = expected.externalActions := by
  obtain ⟨db, copy, department, agents, added, links⟩ := s
  obtain rfl : copy = workflow.committed := saved
  obtain rfl : added = .none := written
  obtain rfl : links = [] := linked
  obtain ⟨riskLevel, requiresApproval, reasons⟩ := classification
  have asked : (waitForHuman workflow.committed).id = workflow.id := rfl
  cases requiresApproval with
  | false =>
    simp [execute, requestExternalAction, recordPacket, Statement.run, Session.commit,
      Session.flush, Pending.add, Pending.none, Guardrails.requestExternalAction, proposedAction]
  | true =>
    simp [execute, requestExternalAction, recordPacket, askHuman, Statement.run, Session.commit,
      Session.flush, Pending.add, Pending.none, Guardrails.requestExternalAction, proposedAction,
      Guardrails.request, Database.record, WorkflowCopy.commit, asked]

end Request

end BusinessOs.App.Orchestrator
