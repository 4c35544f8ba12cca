/- Source: app/agents/department.py, app/services/guardrails.py (inspect_untrusted_text),
     app/services/memory.py
   digest: The operating loop of a department as the steps of its agent. -/

import BusinessOs.App.Orchestrator

set_option autoImplicit false
set_option relaxedAutoImplicit false

namespace BusinessOs.App.DepartmentAgent

open BusinessOs.Lib BusinessOs.Lib.Json.Tree
open BusinessOs.App.Models BusinessOs.App.Company BusinessOs.App.Guardrails
open BusinessOs.App.Sessions BusinessOs.App.Orchestrator

/-- `value.get(key)`. -/
def entry (value : Value) (key : String) : Option Value :=
  match value with
  | .object members => (members.find? fun m => m.1 == key).map Prod.snd
  | _ => none

/-- `output.get(key, [])`. -/
def items (output : Value) (key : String) : List Value :=
  match entry output key with
  | some (.array items) => items
  | _ => []

/-- The Python type of a JSON value. -/
def typeName : Value → String
  | .null => "NoneType"
  | .bool _ => "bool"
  | .number (.float _ _) => "float"
  | .number _ => "int"
  | .string _ => "str"
  | .array _ => "list"
  | .object _ => "dict"

/-- What a `for` loop iterates over; a number, `true`, `false` or `null` raises. -/
def iterate : Value → Option (List Value)
  | .array items => some items
  | .string text => some (text.toList.map fun c => .string (String.singleton c))
  | .object members => some (members.map fun m => .string m.1)
  | _ => none

/-- The members of `result["flags"]`. -/
def flagged (inspection : Value) : Bool := !(items inspection "flags").isEmpty

def mode (payload : Value) : Value := (entry payload "mode").getD (.string "daily")

def defaultChannels : List String :=
  ["linkedin", "x", "instagram", "facebook", "youtube", "newsletter", "blog", "ads"]

def channels (payload : Value) : Option (List Value) :=
  match entry payload "channels" with
  | none => some (defaultChannels.map Value.string)
  | some value => iterate value

def contentTitle (channel : Value) : String :=
  if channel = .string "youtube" then "How Autonomous AI Departments Actually Work"
  else if channel = .string "newsletter" then "This Week in Autonomous Business Ops"
  else if channel = .string "blog" then "Designing Self-Spawning AI Departments"
  else if channel = .string "ads" then "Stop Babysitting Automations"
  else "Autonomous Business Systems Need Approval Gates"

def contentBody (channel : Value) (departmentName : String) : String :=
  if channel = .string "youtube" then
    "Hook, outline, full script, description, chapters, and thumbnail brief generated by " ++
      departmentName ++ ". Human approval required before publication."
  else if channel = .string "newsletter" then
    "Newsletter draft covering autonomy metrics, approval queues, audit logs, and " ++
      "department health signals. Human approval required before send."
  else
    "Draft explains why autonomous departments need clear goals, scoped memory, approval " ++
      "gates, audit logs, and kill switches before they should touch real customers."

def draft (departmentName : String) (channel : Value) : Value :=
  .object [("channel", channel), ("title", .string (contentTitle channel)),
    ("body", .string (contentBody channel departmentName)),
    ("status", .string "draft_ready_for_approval")]

def leads : List Value :=
  [.object [("company", .string "Acme Automation"), ("contact_role", .string "VP Operations"),
      ("score", int 84),
      ("reason", .string "Clear operational workflow complexity and likely automation budget.")],
    .object [("company", .string "Northstar Clinics"), ("contact_role", .string "COO"),
      ("score", int 77),
      ("reason", .string
        "High follow-up volume and customer-success coordination needs.")]]

section Agent

-- Python's `str` of a value that is no string.
variable (str : Value → String)

def format : Value → String
  | .string text => text
  | value => str value

/-- The company of a lead or a draft. -/
def company (value : Value) : String := format str ((entry value "company").getD .null)

def outreach (lead : Value) : Value :=
  .object [("company", .string (company str lead)),
    ("subject", .string ("Autonomous operations idea for " ++ company str lead)),
    ("body", .string "Drafted outreach sequence ready for review before sending.")]

/-- `_generate_department_output`; `none` where the channels are nothing to iterate over. -/
def generateDepartmentOutput (department : Department) (payload inspection : Value) :
    Option Value :=
  if department.departmentType = "content" then
    (channels payload).map fun channels =>
      let drafts := channels.map (draft department.name)
      .object [("summary", .string (department.name ++ " prepared " ++ toString drafts.length ++
          " content drafts for approval.")),
        ("mode", mode payload),
        ("ideas", .array [.string "Why autonomous departments beat task-level automation",
          .string "The approval layer that keeps AI business ops safe",
          .string "How to measure an AI agent team without babysitting it"]),
        ("research_notes", .array
          [.string "Autonomy should be measured by closed-loop completion, not agent count.",
            .string ("Approval gates are needed at publishing, contracts, payments, " ++
              "and destructive actions."),
            .string ("Department isolation reduces accidental cross-contamination " ++
              "between business units.")]),
        ("drafts", .array drafts), ("prompt_injection_inspection", inspection)]
  else if department.departmentType = "sales" then
    some (.object [("summary", .string (department.name ++ " found " ++ toString leads.length ++
        " lead candidates and drafted outreach.")),
      ("mode", mode payload), ("leads", .array leads),
      ("outreach", .array (leads.map (outreach str))),
      ("prompt_injection_inspection", inspection)])
  else if department.departmentType = "intelligence" then
    some (.object [("summary", .string (department.name ++
        " completed market and competitor signal scan.")),
      ("mode", mode payload),
      ("signals", .array
        [.object [("type", .string "competitor"), ("severity", .string "medium"),
            ("note", .string "New AI ops positioning trend.")],
          .object [("type", .string "market"), ("severity", .string "low"),
            ("note", .string "Growing demand for approval-first agents.")]]),
      ("prompt_injection_inspection", inspection)])
  else
    some (.object [("summary", .string (department.name ++ " completed its " ++
        format str (mode payload) ++ " operating loop.")),
      ("mode", mode payload),
      ("actions", .array [.string "Reviewed goals", .string "Updated task queue",
        .string "Prepared upward report"]),
      ("prompt_injection_inspection", inspection)])

/-- The requests of `_propose_external_actions`, in order. -/
def proposals (department : Department) (output : Value) : List Proposal :=
  (if department.departmentType = "content" then
    (items output "drafts").map fun draft =>
      let channel := format str ((entry draft "channel").getD .null)
      { actionType := "publish_post:" ++ channel
        summary := "Publish " ++ channel ++ " content draft"
        payload := draft }
  else []) ++
  (if department.departmentType = "sales" then
    (items output "outreach").map fun draft =>
      { actionType := "outbound_email:sales_outreach"
        summary := "Send sales outreach to " ++ company str draft
        payload := draft }
  else [])

/-- What the processes answer in one attempt, the generated ids, and the exception that strikes it
behind a number of statements, if one does. -/
structure Plan where
  inspection : Value
  eventId : String
  classify : ℕ → Classification
  ids : ℕ → RequestIds
  escalationId : String
  cut : Option (ℕ × String)

/-- Up to the first commit: every agent is running. -/
def startAgents (department : Department) (agents : List AgentInstance) (payload : Value) :
    List AgentStep :=
  [.work (.getDepartment department.id) rfl, .work (.getAgents department.id) rfl] ++
  agents.flatMap (fun agent =>
    [.work (.agent agent.id (.status .running)) rfl,
      .work (.agent agent.id
        (.currentTask (some (format str (mode payload) ++ " operating loop")))) rfl]) ++
  [.work .commit rfl]

/-- `inspect_untrusted_text`; the table of security events is left out. -/
def inspectUntrustedText (workflowId : String) (plan : Plan) : List AgentStep :=
  .work .elsewhere rfl ::
    if flagged plan.inspection then
      [.work .elsewhere rfl, .work .commit rfl,
        .work (.add (.audit
          { workflowId := some workflowId
            action := .securityEventCreated
            actor := "system"
            message := "Suspicious prompt injection markers detected in workflow:" ++
              workflowId ++ ":external_context."
            metadata := .object [("security_event_id", .string plan.eventId),
              ("category", .string "prompt_injection"), ("severity", .string "high"),
              ("agent_id", .null)] })) rfl,
        .work .commit rfl]
    else []

/-- The request for one proposal, with its place. -/
def Plan.request (plan : Plan) (proposal : Proposal × ℕ) : AgentStep :=
  .propose none proposal.1 (plan.classify proposal.2) (plan.ids proposal.2)

def propose (plan : Plan) (proposals : List Proposal) : List AgentStep :=
  proposals.zipIdx.map plan.request

/-- What `request_external_action` returns. -/
def answer (plan : Plan) (i : ℕ) : Value :=
  let classification := plan.classify i
  .object [("external_action_id", .string (plan.ids i).actionId),
    ("approval_id", if classification.requiresApproval then .string (plan.ids i).approvalId
      else .null),
    ("evidence_packet_id", .string (plan.ids i).packetId),
    ("status", .string (if classification.requiresApproval then "proposed" else "approved")),
    ("risk_level", .string classification.riskLevel),
    ("requires_approval", .bool classification.requiresApproval),
    ("reasons", .array (classification.reasons.map Value.string))]

/-- From the output to the end: the department's row, its agents, and the memory, whose table is
left out. The statement between the first two is the process that computes the metrics. -/
def report (department : Department) (agents : List AgentInstance) (workflowId : String)
    (output : Value) (approvals : ℕ) : List AgentStep :=
  let metrics := departmentMetrics department.departmentType department.status.value
    department.revenueSignals output approvals
  let status := if approvals = 0 then .idle else .waitingForApproval
  let summary := (entry output "summary").getD .null
  [.work (.department (.lastOutput output)) rfl, .work .elsewhere rfl,
    .work (.department (.revenueSignals metrics.2)) rfl,
    .work (.department (.healthScore metrics.1)) rfl] ++
  agents.flatMap (fun agent =>
    [.work (.agent agent.id (.status status)) rfl,
      .work (.agent agent.id (.currentTask none)) rfl,
      .work (.agent agent.id (.lastOutput (.object [("workflow_id", .string workflowId),
        ("summary", summary)]))) rfl]) ++
  [.work .commit rfl, .work .elsewhere rfl, .work .commit rfl]

/-- What an exception behind some statements makes of steps that would return. -/
def Plan.interrupt (plan : Plan) (steps : List AgentStep) (result : Value) : Behaviour :=
  match plan.cut with
  | none => .returns steps result
  | some (cut, exc) => .raises steps cut exc

/-- The loop of an active department. -/
def operatingLoop (department : Department) (agents : List AgentInstance) (workflowId : String)
    (payload : Value) (plan : Plan) : Behaviour :=
  let first := startAgents str department agents payload ++ inspectUntrustedText workflowId plan
  match generateDepartmentOutput str department payload plan.inspection with
  | none =>
    let channels := (entry payload "channels").getD .null
    match plan.cut with
    | none => .raises first (first.flatMap (AgentStep.statements workflowId)).length
      ("'" ++ typeName channels ++ "' object is not iterable")
    | some (cut, exc) => .raises first cut exc
  | some output =>
    let proposals := proposals str department output
    plan.interrupt
      (first ++ propose plan proposals ++
        report department agents workflowId output proposals.length)
      (.object [("department_id", .string department.id), ("department", .string department.name),
        ("mode", mode payload), ("output", output),
        ("approval_requests", .array ((List.range proposals.length).map (answer plan)))])

/-- `DynamicDepartmentAgent.run`, on the rows that it reads. No department has an id that is no
text; for an array or an object the lookup raises an exception of its own, which is left out. -/
def run (workflowId : String) (payload : Value) (plan : Plan) (db : CompanyDatabase) : Behaviour :=
  match entry payload "department_id" with
  | some (.string departmentId) =>
    let lookup : AgentStep := .work (.getDepartment departmentId) rfl
    match db.department departmentId with
    | none => .raises [lookup] 1 ("Department not found: " ++ departmentId)
    | some department =>
      if department.status ≠ .active then
        plan.interrupt [lookup] (.object [("department_id", .string department.id),
          ("status", .string department.status.value),
          ("message", .string "Department is not active; operating loop skipped.")])
      else operatingLoop str department (db.agentsOf departmentId) workflowId payload plan
  | some departmentId => .raises [] 0 ("Department not found: " ++ str departmentId)
  | none => .raises [] 0 "'department_id'"

end Agent

end BusinessOs.App.DepartmentAgent
