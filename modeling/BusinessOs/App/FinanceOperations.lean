/- Source: app/agents/finance_operations.py, app/agents/base.py (execute_tool),
     app/services/guardrails.py (classify_action, CircuitBreakerService),
     rust/src/bridge.rs (classify_action)
   digest: The agent of the invoices as steps of its session, and what its classifier leaves of
     them. -/

import BusinessOs.App.DepartmentAgent
import BusinessOs.App.ToolCalls
import BusinessOs.Core.Bridge

set_option autoImplicit false
set_option relaxedAutoImplicit false

namespace BusinessOs.App.FinanceOperations

open BusinessOs.Lib.Json.Tree BusinessOs.Lib.Json.Literals BusinessOs.Lib.Lowercase
open BusinessOs.Core
open BusinessOs.App.Models BusinessOs.App.Workflows BusinessOs.App.Guardrails
open BusinessOs.App.Sessions BusinessOs.App.Orchestrator
open BusinessOs.App.DepartmentAgent (entry items format typeName)
open BusinessOs.App.Breakers
open BusinessOs.App.ToolCalls (Outcome normalizeResult)

/-- A call of a tool: the generated id, the breaker's row if there is one, the clock of its check
and that of the task, and what the tool does. -/
structure ToolRun where
  id : String
  breaker : Option CircuitBreaker
  checkedAt : ℤ
  startedAt : ℤ
  outcome : Outcome

/-- What the processes and the tools answer in one attempt, the generated ids, and the exception
that strikes it behind a number of statements, if one does. -/
structure Plan where
  ids : RequestIds
  invoice : ToolRun
  overdue : ToolRun
  reconciliation : ToolRun
  approvalId : String
  cut : Option (ℕ × String)

theorem elsewhere_quiet : quiet .elsewhere = true := rfl

theorem commit_quiet : quiet .commit = true := rfl

theorem audit_quiet (entry : AuditLog) : quiet (.add (.audit entry)) = true := rfl

/-- A row of a table other than those of the sessions, committed. -/
def elsewhere : List AgentStep :=
  [.work .elsewhere elsewhere_quiet, .work .commit commit_quiet]

/-- `AuditService.record`. -/
def record (entry : AuditLog) : List AgentStep :=
  [.work (.add (.audit entry)) (audit_quiet entry), .work .commit commit_quiet]

/-- `CircuitBreakerService.check`, and the exception that it raises. -/
def checkBreaker (toolName : String) (tool : ToolRun) : List AgentStep × Option String :=
  let row := tool.breaker.getD (CircuitBreaker.new toolName 120 tool.checkedAt)
  let inserted := if tool.breaker.isNone then elsewhere else []
  if refuses (BreakerCopy.load row) tool.checkedAt then
    (inserted, some ("Circuit breaker open for " ++ row.integration))
  else
    let breaker := charge (BreakerCopy.load row) 120 tool.checkedAt
    if exceeded breaker then
      (inserted ++ elsewhere ++ record (openedRecord breaker),
        some ("Rate limit exceeded for " ++ row.integration))
    else (inserted ++ elsewhere, none)

/-- `execute_tool`; the breakers and the tasks are rows of other tables. -/
def executeTool (workflowId toolName : String) (input : Value) (tool : ToolRun) :
    List AgentStep × Outcome :=
  match checkBreaker toolName tool with
  | (checked, some exc) => (checked, .error exc)
  | (checked, none) =>
    let c : ToolCalls.Call :=
      { id := tool.id
        workflowId
        agentName := "finance_operations_agent"
        input
        startedAt := tool.startedAt }
    (checked ++ elsewhere ++ record (c.startedRecord toolName) ++ elsewhere ++
      record (c.settledRecord toolName tool.outcome), tool.outcome)

section Agent

-- Python's `str` of a value that is no string.
variable (str : Value → String)

def isEmpty : Value → Bool
  | .null | .bool false => true
  | .string text => text.isEmpty
  | .array items => items.isEmpty
  | .object members => members.isEmpty
  | .number (.posInt n) => n == 0
  | _ => false

/-- `overdue.get("data", {}).get("items")`. -/
def overdueItems (overdue : Value) : Value :=
  ((entry overdue "data").bind fun data => entry data "items").getD .null

def weeklySummary (invoice overdue reconciliation : Value) : Value :=
  let overdueItems := items ((entry overdue "data").getD .null) "items"
  let data := (entry reconciliation "data").getD (.object [])
  .object [("summary", .string ("Invoice workflow completed. " ++ toString overdueItems.length ++
      " overdue invoices found. Reconciliation result: " ++ format str data ++ ".")),
    ("overdue_count", int overdueItems.length),
    ("invoice_simulated", (entry invoice "simulated").getD (.bool false))]

/-- The request that stands at the head of the run. -/
def invoiceAction (payload : Value) (classification : Classification) (ids : RequestIds) :
    AgentStep :=
  .propose none
    { actionType := "invoice_create"
      summary := "Create invoice for " ++
        format str ((entry payload "customer_id").getD (.string "customer"))
      payload } classification ids

/-- What `request_external_action` returns. -/
def invoiceAnswer (classification : Classification) (ids : RequestIds) : Value :=
  .object [("external_action_id", .string ids.actionId),
    ("approval_id", if classification.requiresApproval then .string ids.approvalId else .null),
    ("evidence_packet_id", .string ids.packetId),
    ("status", .string (if classification.requiresApproval then "proposed" else "approved")),
    ("risk_level", .string classification.riskLevel),
    ("requires_approval", .bool classification.requiresApproval),
    ("reasons", .array (classification.reasons.map Value.string))]

section Plan

variable (plan : Plan)

def Plan.returns (steps : List AgentStep) (result : Value) : Behaviour :=
  match plan.cut with
  | none => .returns steps result
  | some (cut, exc) => .raises steps cut exc

/-- The exception of a tool goes on behind its record. -/
def Plan.raises (workflowId : String) (steps : List AgentStep) (exc : String) : Behaviour :=
  match plan.cut with
  | none => .raises steps (steps.flatMap (AgentStep.statements workflowId)).length exc
  | some (cut, other) => .raises steps cut other

end Plan

/-- The tools, behind a request that needs no approval. -/
def invoice (workflowId : String) (payload : Value) (classification : Classification)
    (plan : Plan) : Behaviour :=
  let started := [invoiceAction str payload classification plan.ids]
  match executeTool workflowId "stripe_create_invoice" payload plan.invoice with
  | (steps, .error exc) => plan.raises workflowId (started ++ steps) exc
  | (invoiced, .ok invoice) =>
    match executeTool workflowId "stripe_list_overdue_invoices" (.object []) plan.overdue with
    | (steps, .error exc) => plan.raises workflowId (started ++ invoiced ++ steps) exc
    | (listed, .ok overdue) =>
      match executeTool workflowId "accounting_reconcile_payments" (.object [])
        plan.reconciliation with
      | (steps, .error exc) => plan.raises workflowId (started ++ invoiced ++ listed ++ steps) exc
      | (reconciled, .ok reconciliation) =>
        let overdue := normalizeResult overdue
        let summary := weeklySummary str (normalizeResult invoice) overdue
          (normalizeResult reconciliation)
        let asks := !isEmpty (overdueItems overdue)
        let asked : List AgentStep :=
          if asks then
            [.ask "Approve overdue payment follow-up"
              "One or more overdue payment reminders are ready to send."
              (.object [("overdue", overdueItems overdue)]) plan.approvalId]
          else []
        plan.returns (started ++ invoiced ++ listed ++ reconciled ++ elsewhere ++ asked)
          (.object [("invoice", normalizeResult invoice), ("overdue", overdue),
            ("reconciliation", normalizeResult reconciliation), ("summary", summary),
            ("approval_id", if asks then .string plan.approvalId else .null)])

/-- `FinanceOperationsAgent.run`, for any classifier. -/
def runClassified (classify : Value → Classification) (workflowId : String) (payload : Value)
    (plan : Plan) : Behaviour :=
  match payload with
  | .object _ =>
    let classification := classify payload
    if classification.requiresApproval then
      plan.returns [invoiceAction str payload classification plan.ids]
        (.object [("invoice", .null), ("invoice_action", invoiceAnswer classification plan.ids),
          ("summary", .string "Invoice creation is waiting for human approval.")])
    else invoice str workflowId payload classification plan
  | _ => .raises [] 0 ("'" ++ typeName payload ++ "' object has no attribute 'get'")

/-- `classify_action` for an invoice. -/
def classifyInvoice (table : CaseTable) (lit : LiteralPrinter) (payload : Value) :
    Classification :=
  let (riskLevel, requiresApproval, reasons) :=
    Bridge.classifyAction table lit "invoice_create" payload
  ⟨riskLevel, requiresApproval, reasons⟩

/-- `FinanceOperationsAgent.run`, with the classifier of the core. -/
def run (table : CaseTable) (lit : LiteralPrinter) (workflowId : String) (payload : Value)
    (plan : Plan) : Behaviour :=
  runClassified str (classifyInvoice table lit) workflowId payload plan

end Agent

/-! What the classifier leaves of the run. -/

section Gate

variable (str : Value → String) (table : CaseTable) (lit : LiteralPrinter)

/-- The core finds its marker in the type of the action, whatever the payload says. -/
theorem classifyInvoice_gated (payload : Value) :
    (classifyInvoice table lit payload).requiresApproval = true ∧
      (classifyInvoice table lit payload).riskLevel = "critical" := by
  have name : "invoice_create".toList = ['i', 'n', 'v', 'o', 'i', 'c', 'e', '_', 'c', 'r', 'e',
      'a', 't', 'e'] := rfl
  have lower : toLowercase table "invoice_create" = "invoice_create" := by
    rw [toLowercase, lowerFrom_ascii, name]
    · rfl
    · rw [name]
      simp [isAscii]
  have found : Bridge.highImpactMarkers.any (contains (toLowercase table "invoice_create")) =
      true := by
    rw [List.any_eq_true]
    refine ⟨"invoice_create", by simp [Bridge.highImpactMarkers], ?_⟩
    rw [lower]
    exact decide_eq_true (List.infix_refl _)
  unfold classifyInvoice Bridge.classifyAction Bridge.verdict
  constructor
  · simp [found]
  · simp [found]

end Gate

end BusinessOs.App.FinanceOperations
