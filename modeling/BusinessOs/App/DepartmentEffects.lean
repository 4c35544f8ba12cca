/- Source: app/agents/department.py, app/services/guardrails.py
   digest: What a part of the operating loop adds to the tables and to the signals. -/

import BusinessOs.App.DepartmentAgent

set_option autoImplicit false
set_option relaxedAutoImplicit false

namespace BusinessOs.App.DepartmentEffects

open BusinessOs.Lib BusinessOs.Lib.Json.Tree
open BusinessOs.App.Models BusinessOs.App.Company
open BusinessOs.App.Guardrails (Classification externalActionId externalActionId_proposal)
open BusinessOs.App.Sessions BusinessOs.App.Orchestrator BusinessOs.App.DepartmentAgent

def actionId? (row : Row) : Option String := row.action?.map ExternalAction.id

/-- The action that an approval's proposal names. -/
def named (approval : HumanApproval) : Option String := externalActionId approval.proposedAction

def named? (row : Row) : Option (Option String) := row.approval?.map named

/-- A counter of the signals. -/
def counter (signals : Value) (key : String) : UInt64 :=
  match signals with
  | .object members => unsigned (OrderedMap.ofList members) key
  | _ => 0

def counters (signals : Value) : List UInt64 :=
  ["lead_count", "pipeline_value", "content_outputs"].map (counter signals)

/-! The rows that a part of a program adds. -/

section Rows

/-- In every part of a program the approvals name actions that stand before them. -/
def Paired (program : List Statement) : Prop :=
  ∀ k, (rowsIn named? (program.take k)).Sublist ((rowsIn actionId? (program.take k)).map some)

variable {first rest : List Statement}

theorem Paired.append (left : Paired first) (right : Paired rest) : Paired (first ++ rest) := by
  intro k
  rw [List.take_append, rowsIn_append, rowsIn_append, List.map_append]
  exact (left k).append (right _)

theorem Paired.take (paired : Paired first) (k : ℕ) : Paired (first.take k) := by
  intro l
  rw [List.take_take]
  exact paired _

theorem Paired.of_silent (silent : rowsIn named? first = []) : Paired first := by
  intro k
  have part := rowsIn_take named? first k
  rw [silent] at part
  rw [List.prefix_nil.mp part]
  exact List.nil_sublist _

section Request

variable (workflowId : String) (agentId : Option String) (proposal : Proposal)
variable (classification : Classification) (ids : RequestIds)

theorem request_actions :
    rowsIn actionId? (requestExternalAction workflowId agentId proposal classification ids) =
      [ids.actionId] := by
  cases gated : classification.requiresApproval <;>
    simp [requestExternalAction, askHuman, recordPacket, gated, rowsIn, actionId?, Row.action?,
      proposedAction]

theorem request_names (text : ids.actionId ≠ "") :
    (rowsIn named? (requestExternalAction workflowId agentId proposal classification ids)).Sublist
      [some ids.actionId] := by
  cases gated : classification.requiresApproval with
  | false =>
    simp [requestExternalAction, recordPacket, gated, rowsIn, named?, Row.approval?]
  | true =>
    have names : externalActionId (Guardrails.proposal proposal.actionType proposal.summary
        proposal.payload classification ids.actionId) = some ids.actionId :=
      externalActionId_proposal text
    simp [requestExternalAction, askHuman, recordPacket, gated, rowsIn, named?, Row.approval?,
      named, Guardrails.openApproval, names]

/-- The action is the second statement of a request. -/
theorem request_actions_take (k : ℕ) :
    rowsIn actionId? ((requestExternalAction workflowId agentId proposal classification ids).take
      (k + 2)) = [ids.actionId] := by
  have whole := rowsIn_take actionId?
    (requestExternalAction workflowId agentId proposal classification ids) (k + 2)
  rw [request_actions] at whole
  refine whole.eq_of_length (Nat.le_antisymm whole.length_le ?_)
  exact Nat.succ_le_succ (Nat.zero_le _)

/-- The statements of one request name their own action, behind it. -/
theorem request_paired (text : ids.actionId ≠ "") :
    Paired (requestExternalAction workflowId agentId proposal classification ids) := by
  intro k
  rcases Nat.lt_or_ge k 2 with early | late
  · obtain rfl | rfl : k = 0 ∨ k = 1 := by omega
    · exact List.nil_sublist _
    · exact List.nil_sublist _
  · obtain ⟨l, rfl⟩ : ∃ l, k = l + 2 := ⟨k - 2, by omega⟩
    rw [request_actions_take]
    have names := rowsIn_take named?
      (requestExternalAction workflowId agentId proposal classification ids) (l + 2)
    exact names.sublist.trans (request_names workflowId agentId proposal classification ids text)

end Request

/-- Work that adds no action; it adds no approval either. -/
def inert : AgentStep → Bool
  | .work (.add (.action _)) _ => false
  | .work _ _ => true
  | _ => false

def keepsSignals : Statement → Bool
  | .department (.revenueSignals _) => false
  | _ => true

theorem rowsIn_flatMap {α : Type} (pick : Row → Option α) (workflowId : String)
    (steps : List AgentStep) :
    rowsIn pick (steps.flatMap (AgentStep.statements workflowId)) =
      steps.flatMap fun step => rowsIn pick (step.statements workflowId) := by
  induction steps with
  | nil => rfl
  | cons step steps ih => rw [List.flatMap_cons, rowsIn_append, ih, List.flatMap_cons]

theorem inert_rows {steps : List AgentStep} (silent : steps.all inert = true)
    (workflowId : String) :
    rowsIn actionId? (steps.flatMap (AgentStep.statements workflowId)) = [] ∧
      rowsIn named? (steps.flatMap (AgentStep.statements workflowId)) = [] := by
  have each : ∀ step ∈ steps, rowsIn actionId? (step.statements workflowId) = [] ∧
      rowsIn named? (step.statements workflowId) = [] := by
    intro step member
    have own := List.all_eq_true.mp silent step member
    cases step with
    | ask title reason proposedAction approvalId => cases own
    | propose agentId proposal classification ids => cases own
    | work statement isQuiet =>
      cases statement with
      | add row =>
        cases row with
        | action action => cases own
        | approval approval => cases isQuiet
        | audit entry => exact ⟨rfl, rfl⟩
        | escalation entry => exact ⟨rfl, rfl⟩
      | _ => exact ⟨rfl, rfl⟩
  rw [rowsIn_flatMap, rowsIn_flatMap]
  constructor
  · exact List.flatMap_eq_nil_iff.mpr fun step member => (each step member).1
  · exact List.flatMap_eq_nil_iff.mpr fun step member => (each step member).2

theorem propose_paired (workflowId : String) (plan : Plan)
    (text : ∀ i, (plan.ids i).actionId ≠ "") (proposals : List Proposal) :
    Paired ((propose plan proposals).flatMap (AgentStep.statements workflowId)) := by
  unfold propose
  induction proposals.zipIdx with
  | nil => exact .of_silent rfl
  | cons first indexed ih =>
    rw [List.map_cons, List.flatMap_cons]
    exact (request_paired workflowId none first.1 _ _ (text first.2)).append ih

/-- With all the requests made, there is one action for each item. -/
theorem propose_actions (workflowId : String) (plan : Plan) (proposals : List Proposal) :
    (rowsIn actionId? ((propose plan proposals).flatMap (AgentStep.statements workflowId))).length =
      proposals.length := by
  have count : proposals.length = proposals.zipIdx.length := List.length_zipIdx.symm
  rw [propose, count]
  induction proposals.zipIdx with
  | nil => rfl
  | cons first indexed ih =>
    rw [List.map_cons, List.flatMap_cons, rowsIn_append, List.length_append, ih, List.length_cons]
    have one : rowsIn actionId? ((plan.request first).statements workflowId) =
        [(plan.ids first.2).actionId] := request_actions ..
    rw [one, List.length_singleton, Nat.add_comm]

theorem rowsIn_take_nil {program : List Statement} (silent : rowsIn actionId? program = [])
    (k : ℕ) : rowsIn actionId? (program.take k) = [] := by
  have part := rowsIn_take actionId? program k
  rwa [silent, List.prefix_nil] at part

/-- Requests between silent parts: an action is added when a cut leaves the first one's row. -/
theorem cut_actions {workflowId : String} {plan : Plan} {proposals : List Proposal}
    {first last : List AgentStep} (before : first.all inert = true)
    (after : last.all inert = true) (k : ℕ) :
    rowsIn actionId? (((first ++ propose plan proposals ++ last).flatMap
      (AgentStep.statements workflowId)).take k) ≠ [] ↔
      proposals ≠ [] ∧ (first.flatMap (AgentStep.statements workflowId)).length + 1 < k := by
  have startSilent := (inert_rows before workflowId).1
  have endSilent := (inert_rows after workflowId).1
  rw [List.flatMap_append, List.flatMap_append, List.append_assoc, List.take_append,
    rowsIn_append, rowsIn_take_nil startSilent, List.nil_append]
  cases proposals with
  | nil =>
    have nothing := rowsIn_take_nil endSilent
      (k - (first.flatMap (AgentStep.statements workflowId)).length)
    simpa [propose] using nothing
  | cons proposal proposals =>
    have split : propose plan (proposal :: proposals) =
        plan.request (proposal, 0) :: (proposals.zipIdx 1).map plan.request := by
      rw [propose, List.zipIdx_cons, List.map_cons]
    have request : (plan.request (proposal, 0)).statements workflowId =
        requestExternalAction workflowId none proposal (plan.classify 0) (plan.ids 0) := rfl
    rw [split, List.flatMap_cons, List.append_assoc, request]
    rcases Nat.lt_or_ge (k - (first.flatMap (AgentStep.statements workflowId)).length) 2 with
      early | late
    · have none_ : ∀ j < 2, ∀ rest : List Statement,
          rowsIn actionId? ((requestExternalAction workflowId none proposal (plan.classify 0)
            (plan.ids 0) ++ rest).take j) = [] := by
        intro j short rest
        obtain rfl | rfl : j = 0 ∨ j = 1 := by omega
        · rfl
        · rfl
      rw [none_ _ early]
      constructor
      · intro some_
        exact absurd rfl some_
      · rintro ⟨_, behind⟩
        omega
    · obtain ⟨l, same⟩ := Nat.exists_eq_add_of_le' late
      have behind : (first.flatMap (AgentStep.statements workflowId)).length + 1 < k := by omega
      rw [same, List.take_append, rowsIn_append,
        request_actions_take workflowId none proposal (plan.classify 0) (plan.ids 0) l]
      constructor
      · intro _
        exact ⟨List.cons_ne_nil _ _, behind⟩
      · intro _
        exact List.append_ne_nil_of_left_ne_nil (List.cons_ne_nil _ _) _

theorem whole_actions {workflowId : String} {plan : Plan} {proposals : List Proposal}
    {first last : List AgentStep} (before : first.all inert = true)
    (after : last.all inert = true) :
    rowsIn actionId? ((first ++ propose plan proposals ++ last).flatMap
      (AgentStep.statements workflowId)) ≠ [] ↔ proposals ≠ [] := by
  rw [List.flatMap_append, List.flatMap_append, rowsIn_append, rowsIn_append,
    (inert_rows before workflowId).1, (inert_rows after workflowId).1, List.nil_append,
    List.append_nil, ← List.length_pos_iff, propose_actions, List.length_pos_iff]

end Rows

/-! The statements of the agent's run. -/

section Run

variable (str : Value → String) {workflowId : String} {payload : Value} {plan : Plan}
variable {db : CompanyDatabase}

theorem startAgents_inert (workflowId : String) (department : Department)
    (agents : List AgentInstance)
    (payload : Value) : (startAgents str department agents payload).all inert = true ∧
      ((startAgents str department agents payload).flatMap
        (AgentStep.statements workflowId)).all keepsSignals = true := by
  constructor
  · simp [startAgents, inert, List.all_append, List.all_flatMap]
  · simp [startAgents, AgentStep.statements, keepsSignals, List.all_append, List.all_flatMap]

theorem inspect_inert (workflowId : String) (plan : Plan) :
    (inspectUntrustedText workflowId plan).all inert = true ∧
      ((inspectUntrustedText workflowId plan).flatMap
        (AgentStep.statements workflowId)).all keepsSignals = true := by
  cases flags : flagged plan.inspection <;>
    simp [inspectUntrustedText, flags, inert, AgentStep.statements, keepsSignals]

theorem propose_signals (proposals : List Proposal) :
    ((propose plan proposals).flatMap (AgentStep.statements workflowId)).all keepsSignals =
      true := by
  rw [List.all_flatMap, List.all_eq_true]
  intro step member
  obtain ⟨⟨proposal, i⟩, _, rfl⟩ := List.mem_map.mp member
  cases gated : (plan.classify i).requiresApproval <;>
    simp [Plan.request, AgentStep.statements, requestExternalAction, askHuman, recordPacket, gated,
      keepsSignals]

theorem report_inert (workflowId : String) (department : Department) (agents : List AgentInstance)
    (output : Value) (approvals : ℕ) :
    (report department agents workflowId output approvals).all inert = true ∧
      ∀ signals, .department (.revenueSignals signals) ∈
        (report department agents workflowId output approvals).flatMap
          (AgentStep.statements workflowId) →
        signals = (departmentMetrics department.departmentType department.status.value
          department.revenueSignals output approvals).2 := by
  constructor
  · simp [report, inert, List.all_append, List.all_flatMap]
  · simp [report, AgentStep.statements, List.flatMap_assoc]

/-- How many of the statements that a plan leaves are run. -/
def reach (plan : Plan) (whole : ℕ) : ℕ := (plan.cut.map Prod.fst).getD whole

theorem interrupt_take (workflowId : String) (plan : Plan) (steps : List AgentStep)
    (result : Value) : (plan.interrupt steps result).statements workflowId =
      (steps.flatMap (AgentStep.statements workflowId)).take
        (reach plan (steps.flatMap (AgentStep.statements workflowId)).length) := by
  unfold Plan.interrupt reach
  cases plan.cut with
  | none => exact List.take_length.symm
  | some at_ => rfl

theorem interrupt_statements (workflowId : String) (plan : Plan) (steps : List AgentStep)
    (result : Value) : ∃ k, (plan.interrupt steps result).statements workflowId =
      (steps.flatMap (AgentStep.statements workflowId)).take k :=
  ⟨_, interrupt_take workflowId plan steps result⟩

/-- The signals that a loop would set, behind the proposals that it makes. -/
def Raised (payload : Value) (plan : Plan) (db : CompanyDatabase) (proposals : List Proposal)
    (signals : Value) : Prop :=
  ∃ id department output, entry payload "department_id" = some (.string id) ∧
    db.department id = some department ∧
    generateDepartmentOutput str department payload plan.inspection = some output ∧
    proposals = DepartmentAgent.proposals str department output ∧
    signals = (departmentMetrics department.departmentType department.status.value
      department.revenueSignals output proposals.length).2

/-- A part of these steps: work, then the requests, then work that may set the signals. -/
def Shaped (workflowId : String) (payload : Value) (plan : Plan) (db : CompanyDatabase)
    (behaviour : Behaviour) : Prop :=
  ∃ first proposals last k,
    behaviour.statements workflowId = ((first ++ propose plan proposals ++ last).flatMap
      (AgentStep.statements workflowId)).take k ∧
    first.all inert = true ∧
    (first.flatMap (AgentStep.statements workflowId)).all keepsSignals = true ∧
    last.all inert = true ∧
    ∀ signals, .department (.revenueSignals signals) ∈
      last.flatMap (AgentStep.statements workflowId) →
      Raised str payload plan db proposals signals

/-- Work alone has the shape. -/
theorem work_shaped {steps : List AgentStep} {behaviour : Behaviour} {k : ℕ}
    (same : behaviour.statements workflowId =
      (steps.flatMap (AgentStep.statements workflowId)).take k)
    (silent : steps.all inert = true)
    (keeps : (steps.flatMap (AgentStep.statements workflowId)).all keepsSignals = true) :
    Shaped str workflowId payload plan db behaviour := by
  refine ⟨steps, [], [], k, ?_, silent, keeps, rfl, ?_⟩
  · rw [same]
    simp [propose]
  · intro signals member
    cases member

theorem loop_shaped {id : String} {department : Department}
    (named : entry payload "department_id" = some (.string id))
    (found : db.department id = some department) (agents : List AgentInstance) :
    Shaped str workflowId payload plan db
      (operatingLoop str department agents workflowId payload plan) := by
  obtain ⟨startInert, startKeeps⟩ := startAgents_inert str workflowId department agents payload
  obtain ⟨inspectInert, inspectKeeps⟩ := inspect_inert workflowId plan
  have silent : (startAgents str department agents payload ++
      inspectUntrustedText workflowId plan).all inert = true := by
    rw [List.all_append, startInert, inspectInert]
    rfl
  have keeps : ((startAgents str department agents payload ++
      inspectUntrustedText workflowId plan).flatMap
        (AgentStep.statements workflowId)).all keepsSignals = true := by
    rw [List.flatMap_append, List.all_append, startKeeps, inspectKeeps]
    rfl
  unfold operatingLoop
  cases generated : generateDepartmentOutput str department payload plan.inspection with
  | none =>
    cases plan.cut with
    | none => exact work_shaped str rfl silent keeps
    | some at_ => exact work_shaped str rfl silent keeps
  | some output =>
    obtain ⟨k, same⟩ := interrupt_statements workflowId plan _ _
    obtain ⟨reportInert, reportSignals⟩ := report_inert workflowId department agents output
      (proposals str department output).length
    refine ⟨_, _, _, k, same, silent, keeps, reportInert, ?_⟩
    intro signals member
    exact ⟨id, department, output, named, found, generated, rfl, reportSignals signals member⟩

theorem run_shaped (workflowId : String) (payload : Value) (plan : Plan) (db : CompanyDatabase) :
    Shaped str workflowId payload plan db
      (DepartmentAgent.run str workflowId payload plan db) := by
  unfold DepartmentAgent.run
  split
  · rename_i id named
    split
    · exact work_shaped str rfl rfl rfl
    · rename_i department found
      split
      · obtain ⟨k, same⟩ := interrupt_statements workflowId plan
          [.work (.getDepartment id) rfl] _
        exact work_shaped str same rfl rfl
      · exact loop_shaped str named found _
  · exact work_shaped str rfl rfl rfl
  · exact work_shaped str rfl rfl rfl

theorem shaped_paired {behaviour : Behaviour}
    (shaped : Shaped str workflowId payload plan db behaviour)
    (text : ∀ i, (plan.ids i).actionId ≠ "") : Paired (behaviour.statements workflowId) := by
  obtain ⟨first, proposals, last, k, same, firstInert, _, lastInert, _⟩ := shaped
  rw [same, List.flatMap_append, List.flatMap_append]
  have requests := propose_paired workflowId plan text proposals
  exact ((Paired.of_silent (inert_rows firstInert workflowId).2).append requests
    |>.append (.of_silent (inert_rows lastInert workflowId).2)).take k

/-- Signals are set behind all of the requests. -/
theorem shaped_signals {behaviour : Behaviour} {signals : Value}
    (shaped : Shaped str workflowId payload plan db behaviour)
    (none_ : rowsIn actionId? (behaviour.statements workflowId) = [])
    (set : .department (.revenueSignals signals) ∈ behaviour.statements workflowId) :
    Raised str payload plan db [] signals := by
  obtain ⟨first, proposals, last, k, same, _, keeps, _, raised⟩ := shaped
  rw [same, List.flatMap_append] at none_ set
  have early : ((first ++ propose plan proposals).flatMap
      (AgentStep.statements workflowId)).all keepsSignals = true := by
    rw [List.flatMap_append, List.all_append, keeps, propose_signals]
    rfl
  rw [List.take_append] at none_ set
  rcases List.mem_append.mp set with before | behind
  · have keeps := List.all_eq_true.mp early _ (List.mem_of_mem_take before)
    cases keeps
  · have late : ((first ++ propose plan proposals).flatMap
        (AgentStep.statements workflowId)).length ≤ k := by
      by_contra short
      rw [Nat.sub_eq_zero_of_le (by omega), List.take_zero] at behind
      cases behind
    rw [List.take_of_length_le late, rowsIn_append, List.flatMap_append, rowsIn_append] at none_
    have nothing := (List.append_eq_nil_iff.mp (List.append_eq_nil_iff.mp none_).1).2
    have length := propose_actions workflowId plan proposals
    rw [nothing] at length
    obtain rfl := List.length_eq_zero_iff.mp length.symm
    exact raised signals (List.mem_of_mem_take behind)

/-- The loop adds an action when it has an item and comes to its first request. -/
theorem loop_actions (department : Department) (agents : List AgentInstance) :
    rowsIn actionId? ((operatingLoop str department agents workflowId payload plan).statements
      workflowId) ≠ [] ↔
      ∃ output, generateDepartmentOutput str department payload plan.inspection = some output ∧
        proposals str department output ≠ [] ∧
        ∀ at_ ∈ plan.cut, ((startAgents str department agents payload ++
          inspectUntrustedText workflowId plan).flatMap
            (AgentStep.statements workflowId)).length + 1 < at_.1 := by
  have silent : (startAgents str department agents payload ++
      inspectUntrustedText workflowId plan).all inert = true := by
    rw [List.all_append, (startAgents_inert str workflowId department agents payload).1,
      (inspect_inert workflowId plan).1]
    rfl
  unfold operatingLoop
  cases generated : generateDepartmentOutput str department payload plan.inspection with
  | none =>
    have nothing := (inert_rows silent workflowId).1
    cases plan.cut with
    | none =>
      have cut := rowsIn_take_nil nothing ((startAgents str department agents payload ++
        inspectUntrustedText workflowId plan).flatMap (AgentStep.statements workflowId)).length
      simpa [Behaviour.statements] using cut
    | some at_ => simpa [Behaviour.statements] using rowsIn_take_nil nothing at_.1
  | some output =>
    have last := (report_inert workflowId department agents output
      (proposals str department output).length).1
    simp only [Option.some.injEq, exists_eq_left']
    unfold Plan.interrupt
    cases plan.cut with
    | none =>
      refine (whole_actions silent last).trans ?_
      simp
    | some at_ =>
      refine (cut_actions silent last at_.1).trans ?_
      simp

end Run

/-! The metrics of a loop without proposals. -/

section Metrics

theorem countItems_eq (output : Value) (key : String) :
    countItems output key = UInt64.ofNat (items output key).length := by
  unfold countItems items entry
  cases output with
  | object members =>
    dsimp only
    cases (members.find? fun m => m.1 == key).map Prod.snd with
    | none => rfl
    | some value => cases value <;> rfl
  | _ => rfl

theorem counter_object {members : List (String × Value)} (sorted : OrderedMap.Sorted members)
    (key : String) : counter (.object members) key = unsigned members key := by
  show unsigned (OrderedMap.ofList members) key = _
  rw [OrderedMap.ofList_of_sorted sorted]

/-- An insertion changes its own counter only. -/
theorem unsigned_insert (members : List (String × Value)) (key other : String) (n : UInt64) :
    unsigned (OrderedMap.insert key (.number (.posInt n)) members) other =
      if key = other then n else unsigned members other := by
  unfold unsigned
  rw [OrderedMap.find?_insert]
  by_cases own : key = other <;> simp [own]

/-- The members that the metrics start from. -/
def members (signals : Value) : List (String × Value) :=
  match signals with
  | .object members => OrderedMap.ofList members
  | _ => []

theorem members_sorted (signals : Value) : OrderedMap.Sorted (members signals) := by
  unfold members
  split
  · exact OrderedMap.ofList_sorted
  · exact .nil

theorem counter_members (signals : Value) (key : String) :
    counter signals key = unsigned (members signals) key := by
  cases signals <;> rfl

/-- A loop that has nothing to propose leaves the counters as they are. -/
theorem metrics_counters (str : Value → String) {department : Department}
    {payload inspection output : Value} (approvals : ℕ)
    (generated : generateDepartmentOutput str department payload inspection = some output)
    (none_ : proposals str department output = []) :
    counters (departmentMetrics department.departmentType department.status.value
      department.revenueSignals output approvals).2 = counters department.revenueSignals := by
  have same : ∀ key, counter (departmentMetrics department.departmentType
      department.status.value department.revenueSignals output approvals).2 key =
      counter department.revenueSignals key := by
    intro key
    rw [counter_members department.revenueSignals]
    have sorted := members_sorted department.revenueSignals
    by_cases content : department.departmentType = "content"
    · have drafts : items output "drafts" = [] := by
        simpa [proposals, content] using none_
      have count : countItems output "drafts" = 0 := by
        rw [countItems_eq, drafts]
        rfl
      have result : (departmentMetrics department.departmentType department.status.value
          department.revenueSignals output approvals).2 =
          .object (OrderedMap.insert "content_outputs"
            (.number (.posInt (unsigned (members department.revenueSignals) "content_outputs" +
              countItems output "drafts"))) (members department.revenueSignals)) := by
        simp only [departmentMetrics, content]
        rfl
      rw [result, count, counter_object (OrderedMap.insert_sorted sorted), unsigned_insert]
      split
      · rename_i own
        rw [← own, UInt64.add_zero]
      · rfl
    · by_cases sales : department.departmentType = "sales"
      · have outreach : items output "outreach" = leads.map (DepartmentAgent.outreach str) := by
          simp only [generateDepartmentOutput, sales] at generated
          obtain rfl := Option.some.inj generated
          rfl
        simp [proposals, sales, outreach, leads] at none_
      · have result : (departmentMetrics department.departmentType department.status.value
            department.revenueSignals output approvals).2 =
            .object (members department.revenueSignals) := by
          simp only [departmentMetrics, content, sales, if_false]
          rfl
        rw [result, counter_object sorted]
  exact List.map_congr_left fun key _ => same key

end Metrics

end BusinessOs.App.DepartmentEffects
