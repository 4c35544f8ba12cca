/- Source: app/agents/finance_operations.py, app/agents/orchestrator.py, app/services/guardrails.py,
     app/services/approval.py, app/services/scheduler.py, app/api/routes_agents.py
   digest: The workflows of the invoices among all sessions and all decisions: they never get past
     their approval. -/

import BusinessOs.App.Decisions
import BusinessOs.App.FinanceOperations
import BusinessOs.App.LifecycleLaws

set_option autoImplicit false
set_option relaxedAutoImplicit false

namespace BusinessOs.App.InvoiceGate

open BusinessOs.Lib BusinessOs.Lib.Execution BusinessOs.Lib.Interleaving BusinessOs.Lib.UnitOfWork
open BusinessOs.Lib.Json.Tree BusinessOs.Lib.Json.Literals BusinessOs.Lib.Lowercase
open BusinessOs.App.Models BusinessOs.App.Workflows BusinessOs.App.Company
open BusinessOs.App.Guardrails (Classification ActionCopy syncDecision)
open BusinessOs.App.Decisions (DecisionRequest)
open BusinessOs.App.Sessions BusinessOs.App.Orchestrator BusinessOs.App.DepartmentAgent
open BusinessOs.App.DepartmentEffects BusinessOs.App.Lifecycle BusinessOs.App.LifecycleCommits
open BusinessOs.App.LifecycleLaws

/-- The sessions of the workflows, and the requests that decide approvals. -/
structure Office (P R : Type) where
  app : Lifecycle.World P
  desk : R → Decisions.Phase

inductive Event (P R : Type)
  | app (e : Lifecycle.Event P)
  | decision (e : Decisions.Event R)

def who {R : Type} : Decisions.Event R → R
  | .read i | .decide i _ | .record i | .readAction i | .sync i => i

section Step

variable {P R : Type} [DecidableEq P] [DecidableEq R] (str : Value → String)
variable (requests : R → DecisionRequest) (approvals : R → String)

def step (s : Office P R) : Event P R → Option (Office P R)
  | .app e => (Lifecycle.step str s.app e).map fun app => { s with app }
  | .decision e =>
    (Decisions.step requests (approvals (who e)) ⟨s.app.db.toDatabase, s.desk⟩ e).map fun w =>
      { app := { s.app with db := { s.app.db with toDatabase := w.db } }, desk := w.phase }

variable (table : CaseTable) (lit : LiteralPrinter)

/-- An invoice's workflow is run by its agent; every other agent records tasks for its own
workflow. -/
def Staffed (s : Office P R) : Event P R → Prop
  | .app (.call p _ other) => ∀ call ∈ (s.app.phase p).call,
    if call.session.workflow.kind = "finance_operations" then
      ∃ plan, other =
        FinanceOperations.run str table lit call.session.workflow.id call.payload plan
    else ∀ entry, .add (.audit entry) ∈ other.statements call.session.workflow.id →
      entry.action = .taskStarted → entry.workflowId = some call.session.workflow.id
  | _ => True

end Step

/-- Closed sessions before any workflow, over agents with distinct ids. -/
structure Initial {P R : Type} (s : Office P R) : Prop where
  closed : ∀ p, s.app.phase p = .idle
  waiting : ∀ r, s.desk r = .waiting
  workflows : s.app.db.workflows = []
  actions : s.app.db.externalActions = []
  audits : s.app.db.auditLogs = []
  agents : (s.app.db.agentInstances.map AgentInstance.id).Nodup

/-- An invoice that has been proposed; it may have been decided, but nothing has executed it. -/
def isInvoice (action : ExternalAction) : Bool :=
  action.actionType == "invoice_create" && action.riskLevel == "critical" &&
    action.requiresApproval && action.status != .executed

/-- What the sessions may add while an invoice's workflow is theirs, and otherwise. -/
def gated (workflowId kind : String) : Statement → Bool
  | .add (.audit entry) => entry.action != .taskStarted ||
    (entry.workflowId == some workflowId && kind != "finance_operations")
  | .add (.action action) => action.workflowId == some workflowId &&
    (kind != "finance_operations" || isInvoice action)
  | _ => true

/-- No invoice is past its approval in these rows. -/
structure Gate (db : CompanyDatabase) : Prop where
  rows : ∀ row ∈ db.workflows, row.kind = "finance_operations" → row.status ≠ .completed
  tasks : ∀ entry ∈ db.auditLogs, entry.action = .taskStarted → ∀ id,
    entry.workflowId = some id → ∃ kind payload, kindOf db id = some (kind, payload) ∧
      kind ≠ "finance_operations"
  actions : ∀ action ∈ db.externalActions, ∀ id, action.workflowId = some id →
    ∃ kind payload, kindOf db id = some (kind, payload) ∧
      (kind = "finance_operations" → isInvoice action = true)

/-- A session that will not complete an invoice's workflow. -/
structure Sound (call : Call) : Prop where
  statements : call.program.all
    (gated call.session.workflow.id call.session.workflow.kind) = true
  status : call.session.workflow.kind = "finance_operations" → ∀ k,
    (copyAfter call.session.workflow (call.program.take k)).status.current ≠ .completed

structure Safe (process : Process) : Prop where
  call : ∀ call ∈ process.call, Sound call
  writes : ∀ entry, .write (.audit entry) ∈ process.tasks → entry.action ≠ .taskStarted
  tasks : ∀ workflow payload, .runWorkflow workflow payload ∈ process.tasks →
    workflow.kind = "finance_operations" → workflow.status.current ≠ .completed

/-- A request that has decided is for or against. -/
def Decided : Decisions.Phase → Prop
  | .decided approval | .recorded approval | .syncing approval _ =>
    approval.status.current ≠ .opened
  | _ => True

/-! The statements of the calls. -/

section Statements

variable {workflowId kind : String} {workflow : WorkflowCopy} {first rest : List Statement}

/-- A record other than that of a task. -/
def tame : Statement → Bool
  | .add (.audit entry) => entry.action != .taskStarted
  | _ => true

theorem gated_of_tame {statement : Statement} (isTame : tame statement = true)
    (own : ∀ action, statement = .add (.action action) → action.workflowId = some workflowId)
    (other : kind ≠ "finance_operations") : gated workflowId kind statement = true := by
  cases statement with
  | add row =>
    cases row with
    | audit entry => simpa [gated] using Or.inl (by simpa [tame] using isTame)
    | action action => simp [gated, own action rfl, other]
    | approval approval => rfl
    | escalation entry => rfl
  | _ => rfl

theorem opening_gated (workflow : WorkflowCopy) :
    (opening workflow).all (gated workflowId kind) = true := rfl

theorem closing_gated (left : WorkflowCopy) (escalationId : String)
    (outcome : Except String Value) :
    (closing left escalationId outcome).all (gated workflowId kind) = true := by
  unfold closing
  rw [List.all_append, List.all_flatMap]
  have records : (finishRecords left escalationId outcome).all (fun record =>
      [Statement.add (Orchestrator.row record), .commit].all (gated workflowId kind)) = true := by
    cases outcome with
    | ok result =>
      by_cases waits : left.status.current = .waitingForHuman <;>
        simp [finishRecords, waits, Orchestrator.row, gated]
    | error exc =>
      by_cases room : left.attempts.current < left.maxAttempts <;>
        simp [finishRecords, room, Orchestrator.row, gated]
  rw [records]
  rfl

/-- What holds of the parts of a department's loop holds of every run. -/
theorem department_all {p : Statement → Bool} (str : Value → String) (payload : Value)
    (plan : Plan) (db : CompanyDatabase) (get : ∀ id, p (.getDepartment id) = true)
    (start : ∀ department agents, ((startAgents str department agents payload).flatMap
      (AgentStep.statements workflowId)).all p = true)
    (inspect : ((inspectUntrustedText workflowId plan).flatMap
      (AgentStep.statements workflowId)).all p = true)
    (proposes : ∀ proposals, ((propose plan proposals).flatMap
      (AgentStep.statements workflowId)).all p = true)
    (reports : ∀ department agents output approvals,
      ((report department agents workflowId output approvals).flatMap
        (AgentStep.statements workflowId)).all p = true) :
    ((DepartmentAgent.run str workflowId payload plan db).statements workflowId).all p = true := by
  have cut : ∀ {program : List Statement} (k : ℕ), program.all p = true →
      (program.take k).all p = true := by
    intro program k all
    rw [List.all_eq_true] at all ⊢
    exact fun statement member => all statement (List.mem_of_mem_take member)
  unfold DepartmentAgent.run
  split
  · rename_i id named
    have look : ([AgentStep.work (.getDepartment id) rfl].flatMap
        (AgentStep.statements workflowId)).all p = true := by
      simpa [AgentStep.statements] using get id
    split
    · exact cut 1 look
    · rename_i department found
      split
      · obtain ⟨k, same⟩ := interrupt_statements workflowId plan
          [.work (.getDepartment id) rfl] _
        rw [same]
        exact cut k look
      · have early : ∀ agents, ((startAgents str department agents payload ++
            inspectUntrustedText workflowId plan).flatMap
              (AgentStep.statements workflowId)).all p = true := by
          intro agents
          rw [List.flatMap_append, List.all_append, start, inspect]
          rfl
        unfold operatingLoop
        split
        · split
          · exact cut _ (early _)
          · exact cut _ (early _)
        · rename_i output _
          obtain ⟨k, same⟩ := interrupt_statements workflowId plan
            (startAgents str department (db.agentsOf id) payload ++
              inspectUntrustedText workflowId plan ++
              propose plan (proposals str department output) ++
              report department (db.agentsOf id) workflowId output
                (proposals str department output).length) _
          rw [same]
          apply cut k
          rw [List.flatMap_append, List.flatMap_append, List.all_append, List.all_append, early,
            proposes, reports]
          rfl
  · rfl
  · rfl

theorem department_tame (str : Value → String) (payload : Value) (plan : Plan)
    (db : CompanyDatabase) :
    ((DepartmentAgent.run str workflowId payload plan db).statements workflowId).all tame =
      true := by
  refine department_all str payload plan db (fun _ => rfl) ?_ ?_ ?_ ?_
  · intro department agents
    simp [startAgents, AgentStep.statements, tame, List.all_append, List.all_flatMap]
  · cases flags : flagged plan.inspection <;>
      simp [inspectUntrustedText, flags, AgentStep.statements, tame]
  · intro proposals
    rw [List.all_flatMap, List.all_eq_true]
    intro step member
    obtain ⟨⟨proposal, i⟩, _, rfl⟩ := List.mem_map.mp member
    cases asks : (plan.classify i).requiresApproval <;>
      simp [Plan.request, AgentStep.statements, requestExternalAction, askHuman, recordPacket,
        asks, tame, approvalRecord]
  · intro department agents output approvals
    simp [report, AgentStep.statements, tame, List.all_flatMap]

theorem gated_take {program : List Statement} (all : program.all (gated workflowId kind) = true)
    (k : ℕ) : (program.take k).all (gated workflowId kind) = true := by
  rw [List.all_eq_true] at all ⊢
  exact fun statement member => all statement (List.mem_of_mem_take member)

variable (str : Value → String) (table : CaseTable) (lit : LiteralPrinter) (payload : Value)

/-- The agent of an invoice proposes it and does no more; where it returns it has asked. -/
theorem finance_run (workflowId : String) (plan : FinanceOperations.Plan) :
    let behaviour := FinanceOperations.run str table lit workflowId payload plan
    (behaviour.statements workflowId).all (gated workflowId "finance_operations") = true ∧
      ∀ result, behaviour.outcome = .ok result →
        .waitForHuman ∈ behaviour.statements workflowId := by
  obtain ⟨asks, critical⟩ := FinanceOperations.classifyInvoice_gated table lit payload
  have proposes : ([FinanceOperations.invoiceAction str payload
      (FinanceOperations.classifyInvoice table lit payload) plan.ids].flatMap
        (AgentStep.statements workflowId)).all (gated workflowId "finance_operations") = true := by
    simp [FinanceOperations.invoiceAction, AgentStep.statements, requestExternalAction, askHuman,
      recordPacket, asks, critical, gated, isInvoice, proposedAction, approvalRecord]
  intro behaviour
  cases payload with
  | object members =>
    have same : behaviour = plan.returns [FinanceOperations.invoiceAction str (.object members)
        (FinanceOperations.classifyInvoice table lit (.object members)) plan.ids] _ := if_pos asks
    rw [same, FinanceOperations.Plan.returns]
    cases plan.cut with
    | none =>
      refine ⟨proposes, fun result _ => ?_⟩
      simp [Behaviour.statements, FinanceOperations.invoiceAction, AgentStep.statements,
        requestExternalAction, askHuman, asks]
    | some at_ =>
      refine ⟨gated_take proposes at_.1, fun result returned => ?_⟩
      cases returned
  | _ =>
    refine ⟨rfl, fun result returned => ?_⟩
    cases returned

/-- Behind the result there are only records. -/
theorem closing_cons (left : WorkflowCopy) (escalationId : String)
    (outcome : Except String Value) : ∃ later : List Statement,
    closing left escalationId outcome = .finish outcome :: later ∧
      ∀ statement ∈ later, statement.byAgent = true ∧ statement ≠ .waitForHuman := by
  refine ⟨_, rfl, ?_⟩
  intro statement member
  rcases List.mem_cons.mp member with rfl | record
  · exact ⟨rfl, by simp⟩
  · obtain ⟨record, _, inside⟩ := List.mem_flatMap.mp record
    rcases List.mem_cons.mp inside with rfl | last
    · exact ⟨rfl, by simp⟩
    · obtain rfl := List.mem_singleton.mp last
      exact ⟨rfl, by simp⟩

/-- Where a run that returns has asked a human, no part of it leaves the workflow completed. -/
theorem asked_status {agent : List Statement} {outcome : Except String Value}
    (escalationId : String) (byAgent : ∀ statement ∈ agent, statement.byAgent = true)
    (asks : ∀ result, outcome = .ok result → .waitForHuman ∈ agent)
    (unfinished : workflow.status.current ≠ .completed) (k : ℕ) :
    (copyAfter workflow ((agent ++ closing (copyAfter workflow agent) escalationId
      outcome).take k)).status.current ≠ .completed := by
  have before : ∀ l, (copyAfter workflow (agent.take l)).status.current ≠ .completed := by
    intro l
    rw [agent_status fun statement member => byAgent statement (List.mem_of_mem_take member)]
    split
    · exact WorkflowStatus.noConfusion
    · exact unfinished
  have finished : (finish (copyAfter workflow agent) outcome).status.current ≠ .completed := by
    cases outcome with
    | ok result =>
      have waits : (copyAfter workflow agent).status.current = .waitingForHuman := by
        rw [agent_status byAgent, if_pos (asks result rfl)]
      simp [finish, waits]
    | error exc =>
      by_cases room : (copyAfter workflow agent).attempts.current <
          (copyAfter workflow agent).maxAttempts
      · simp [finish, room, Tracked.set]
      · simp [finish, room, markFailed, Tracked.set]
  obtain ⟨later, closes, others⟩ := closing_cons (copyAfter workflow agent) escalationId outcome
  rw [closes, List.take_append, copyAfter_append]
  rcases Nat.lt_or_ge agent.length k with late | early
  · obtain ⟨l, rfl⟩ := Nat.exists_eq_add_of_lt late
    rw [Nat.add_assoc, Nat.add_sub_cancel_left, List.take_succ_cons,
      List.take_of_length_le (Nat.le_add_right _ _)]
    show (copyAfter (finish (copyAfter workflow agent) outcome) _).status.current ≠ _
    rw [agent_status fun statement member =>
      (others statement (List.mem_of_mem_take member)).1, if_neg]
    · exact finished
    · exact fun member => (others _ (List.mem_of_mem_take member)).2 rfl
  · rw [Nat.sub_eq_zero_of_le early, List.take_zero]
    exact before k

end Statements

/-! The next commit of a call. -/

section Advance

variable {call : Call} {db : CompanyDatabase}

/-- A commit leaves the status of the copy. -/
theorem commit_status (workflow : WorkflowCopy) (program : List Statement) :
    (copyAfter workflow (program ++ [.commit])).status.current =
      (copyAfter workflow program).status.current := by
  rw [copyAfter_snoc]
  rfl

/-- What is left of a call behind its next commit ends as a part of the call would. -/
theorem later_status (call : Call) (db : CompanyDatabase) (k : ℕ) : ∃ l,
    (copyAfter (call.advance db).session.workflow
      ((call.advance db).program.take k)).status.current =
        (copyAfter call.session.workflow (call.program.take l)).status.current := by
  have workflow : (call.advance db).session.workflow = copyAfter call.session.workflow
      (call.program.takeWhile (fun statement => statement != .commit) ++ [.commit]) :=
    execute_workflow
  rw [workflow, ← copyAfter_append]
  show ∃ l, (copyAfter _ (_ ++ (List.drop 1 (List.dropWhile _ call.program)).take k)).status.current
    = _
  by_cases commits : .commit ∈ call.program
  · obtain ⟨first, rest, whole, apart⟩ := List.eq_append_cons_of_mem commits
    obtain ⟨taken, dropped⟩ := cut_at rest apart
    rw [whole, taken, dropped]
    refine ⟨first.length + (1 + k), ?_⟩
    rw [List.take_length_add_append, Nat.add_comm 1 k, List.take_succ_cons, List.append_assoc]
    rfl
  · have others : ∀ statement ∈ call.program, (statement != .commit) = true := by
      intro statement member
      rw [bne_iff_ne]
      rintro rfl
      exact commits member
    refine ⟨call.program.length, ?_⟩
    rw [List.takeWhile_eq_self_iff.mpr others, List.dropWhile_eq_nil_iff.mpr others, List.drop_nil,
      List.take_nil, List.append_nil, List.take_length]
    exact commit_status _ _

theorem advance_workflows : (call.advance db).session.db.workflows =
    Table.update Workflow.id db.workflows call.session.workflow.id
      (copyAfter call.session.workflow
        (call.program.takeWhile fun statement => statement != .commit)).flush := by
  rw [advance_session]
  show (Session.flush _).workflows = _
  have same : (execute { call.session with db } (call.program.takeWhile
      fun statement => statement != .commit)).db = db := execute_db (takeWhile_apart _)
  have copy : (execute { call.session with db } (call.program.takeWhile
      fun statement => statement != .commit)).workflow = copyAfter call.session.workflow
        (call.program.takeWhile fun statement => statement != .commit) := execute_workflow
  simp only [Session.flush, same, copy, copyAfter_id]

theorem Sound.advance (sound : Sound call) : Sound (call.advance db) := by
  have workflow : (call.advance db).session.workflow =
      copyAfter call.session.workflow call.segment := execute_workflow
  have id : (call.advance db).session.workflow.id = call.session.workflow.id := by
    rw [workflow, copyAfter_id]
  have kind : (call.advance db).session.workflow.kind = call.session.workflow.kind := by
    rw [workflow, (agent_fixed call.segment).2.1]
  constructor
  · rw [id, kind, List.all_eq_true]
    intro statement member
    have inside := (List.dropWhile_sublist _).subset (List.mem_of_mem_drop member)
    exact List.all_eq_true.mp sound.statements statement inside
  · intro invoice k
    obtain ⟨l, same⟩ := later_status call db k
    rw [same]
    exact sound.status (kind ▸ invoice) l

/-- A commit of a session that is sound lets no invoice past its approval. -/
theorem Gate.advance (gate : Gate db) (keys : (db.workflows.map Workflow.id).Nodup)
    (owns : Owns db call) (sound : Sound call) : Gate (call.advance db).session.db := by
  have committed := owns.advance.1
  have added : ∀ statement ∈ call.program.takeWhile (fun statement => statement != .commit),
      gated call.session.workflow.id call.session.workflow.kind statement = true :=
    fun statement member => List.all_eq_true.mp sound.statements statement
      ((List.takeWhile_sublist _).subset member)
  have segment : settled call.segment = call.segment := settled_commit _
  constructor
  · intro row member invoice
    rw [advance_workflows] at member
    rcases Table.mem_update member with ⟨old, _⟩ | ⟨old, inside, own, rfl⟩
    · exact gate.rows row old invoice
    · have known : kindOf db call.session.workflow.id = some (old.kind, old.payload) := by
        rw [← own]
        show (Table.get Workflow.id db.workflows old.id).map _ = _
        rw [Table.get_of_mem keys inside]
        rfl
      rw [owns.workflow] at known
      have kind : call.session.workflow.kind = old.kind := (Prod.mk.inj (Option.some.inj known)).1
      have status := sound.status (kind.trans invoice)
        (call.program.takeWhile fun statement => statement != .commit).length
      rw [← List.prefix_iff_eq_take.mp (List.takeWhile_prefix _)] at status
      show Tracked.flush _ _ ≠ _
      unfold Tracked.flush
      split
      · exact gate.rows old inside invoice
      · exact status
  · intro entry member started id named
    have rows : (call.advance db).session.db.auditLogs = db.auditLogs ++
        rowsIn Row.audit? (settled call.segment) :=
      audits_grow.committed (s := { call.session with db }) (by
        rw [owns.clean.added]
        rfl)
    rw [rows, segment, Call.segment, rowsIn_snoc (by simp)] at member
    rw [committed.kinds]
    rcases List.mem_append.mp member with old | new
    · exact gate.tasks entry old started id named
    · have statement : .add (.audit entry) ∈
          call.program.takeWhile fun statement => statement != .commit := by
        obtain ⟨statement, inside, picked⟩ := List.mem_filterMap.mp new
        cases statement with
        | add row =>
          cases row with
          | audit other =>
            obtain rfl : other = entry := Option.some.inj picked
            exact inside
          | _ => cases picked
        | _ => cases picked
      have own : entry.workflowId = some call.session.workflow.id ∧
          call.session.workflow.kind ≠ "finance_operations" := by
        simpa [gated, started] using added _ statement
      obtain rfl : call.session.workflow.id = id := Option.some.inj (own.1.symm.trans named)
      exact ⟨_, _, owns.workflow, own.2⟩
  · intro action member id named
    have rows : (call.advance db).session.db.externalActions.map
        (fun action => (action.workflowId, isInvoice action)) = db.externalActions.map
          (fun action => (action.workflowId, isInvoice action)) ++
        rowsIn (fun row => row.action?.map fun action => (action.workflowId, isInvoice action))
          (settled call.segment) :=
      (actions_grow (fun action => (action.workflowId, isInvoice action))
        fun _ _ => rfl).committed (s := { call.session with db }) (by
          rw [owns.clean.added]
          rfl)
    have image : (action.workflowId, isInvoice action) ∈
        (call.advance db).session.db.externalActions.map
          fun action => (action.workflowId, isInvoice action) :=
      List.mem_map.mpr ⟨action, member, rfl⟩
    rw [rows, segment, Call.segment, rowsIn_snoc (by simp)] at image
    rw [committed.kinds]
    rcases List.mem_append.mp image with old | new
    · obtain ⟨before, inside, same⟩ := List.mem_map.mp old
      obtain ⟨owner, proposed⟩ := Prod.mk.inj same
      obtain ⟨kind, payload, known, law⟩ := gate.actions before inside id (owner.trans named)
      exact ⟨kind, payload, known, fun invoice => proposed ▸ law invoice⟩
    · obtain ⟨statement, inside, picked⟩ := List.mem_filterMap.mp new
      have own : action.workflowId = some call.session.workflow.id ∧
          (call.session.workflow.kind ≠ "finance_operations" ∨ isInvoice action = true) := by
        cases statement with
        | add row =>
          cases row with
          | action other =>
            obtain ⟨owner, proposed⟩ := Prod.mk.inj (Option.some.inj picked)
            rw [← owner, ← proposed]
            simpa [gated] using added _ inside
          | _ => cases picked
        | _ => cases picked
      obtain rfl : call.session.workflow.id = id := Option.some.inj (own.1.symm.trans named)
      refine ⟨_, _, owns.workflow, fun invoice => ?_⟩
      exact own.2.resolve_left (not_not.mpr invoice)

end Advance

/-! The beginning of a call, and of its agent's run. -/

section Start

variable {call : Call} {db : CompanyDatabase}

theorem sound_enter (process : Process) (db : CompanyDatabase) {workflow : WorkflowCopy}
    (payload : Value)
    (unfinished : workflow.kind = "finance_operations" →
      workflow.status.current ≠ .completed) : Sound (process.enter db workflow payload) := by
  refine ⟨opening_gated workflow, fun invoice k => ?_⟩
  show (copyAfter workflow ((opening workflow).take k)).status.current ≠ .completed
  rcases k with _ | k
  · exact unfinished invoice
  · have running : ∀ l, (copyAfter (markRunning workflow)
        (([.commit, .add (Orchestrator.row (startedRecord workflow)), .commit] :
          List Statement).take l)).status.current = .running := by
      intro l
      rw [agent_status, if_neg]
      · rfl
      · intro member
        simpa [Orchestrator.row] using List.mem_of_mem_take member
      · intro statement member
        have inside := List.mem_of_mem_take member
        simp only [List.mem_cons, List.not_mem_nil, or_false] at inside
        rcases inside with rfl | rfl | rfl <;> rfl
    rw [opening, List.take_succ_cons]
    show (copyAfter (markRunning workflow) _).status.current ≠ _
    rw [running]
    exact WorkflowStatus.noConfusion

variable (str : Value → String) (table : CaseTable) (lit : LiteralPrinter)

/-- The agent that the orchestrator has for the kind runs soundly. -/
theorem Sound.start (sound : Sound call) (db : CompanyDatabase) (plan : Plan) {other : Behaviour}
    (own : (other.statements call.session.workflow.id).all
      (foreign call.session.workflow.id) = true)
    (staffed : if call.session.workflow.kind = "finance_operations" then
        ∃ plan, other =
          FinanceOperations.run str table lit call.session.workflow.id call.payload plan
      else ∀ entry, .add (.audit entry) ∈ other.statements call.session.workflow.id →
        entry.action = .taskStarted → entry.workflowId = some call.session.workflow.id) :
    Sound (call.start db str plan other) := by
  by_cases invoice : call.session.workflow.kind = "finance_operations"
  · rw [if_pos invoice] at staffed
    obtain ⟨answers, rfl⟩ := staffed
    obtain ⟨statements, asks⟩ := finance_run str table lit call.payload
      call.session.workflow.id answers
    have another : call.session.workflow.kind ≠ "department_operation" := by
      rw [invoice]
      decide
    constructor
    · show List.all (Call.start call db str plan _).program
        (gated call.session.workflow.id call.session.workflow.kind) = true
      simp only [Call.start, if_neg another, List.all_append, closing_gated, Bool.and_true]
      rw [invoice]
      exact statements
    · intro _ k
      have unfinished := sound.status invoice 0
      simp only [Call.start, if_neg another]
      exact asked_status plan.escalationId (statements_byAgent _ _) asks unfinished k
  · rw [if_neg invoice] at staffed
    refine ⟨?_, fun finance => absurd finance invoice⟩
    show List.all (Call.start call db str plan other).program
      (gated call.session.workflow.id call.session.workflow.kind) = true
    by_cases department : call.session.workflow.kind = "department_operation"
    · obtain ⟨rows, owned, _⟩ := run_owned call.session.workflow.id str call.payload plan
        (call.view db)
      simp only [Call.start, if_pos department, List.all_append, closing_gated, Bool.and_true]
      rw [List.all_eq_true] at owned ⊢
      intro statement member
      have tame := List.all_eq_true.mp (department_tame str call.payload plan (call.view db))
        statement member
      refine gated_of_tame tame ?_ invoice
      rintro action rfl
      exact eq_of_beq (owned _ member)
    · simp only [Call.start, if_neg department, List.all_append, closing_gated, Bool.and_true]
      rw [List.all_eq_true] at own ⊢
      intro statement member
      have foreign := own statement member
      cases statement with
      | add row =>
        cases row with
        | audit entry =>
          by_cases started : entry.action = .taskStarted
          · simp [gated, staffed entry member started, invoice]
          · simp [gated, started]
        | action action =>
          have named : action.workflowId = some call.session.workflow.id := eq_of_beq foreign
          simp [gated, invoice, named]
        | approval approval => rfl
        | escalation entry => rfl
      | _ => rfl

end Start

/-! The steps. -/

section Steps

variable {P : Type} {str : Value → String} {s t : Lifecycle.World P}
variable {db : CompanyDatabase} {process : Process} {call : Call}

theorem gate_insert (gate : Gate db) (creation : Creation) :
    Gate (insertWorkflow db creation) := by
  have known : ∀ {id : String} {entry : String × Value}, kindOf db id = some entry →
      kindOf (insertWorkflow db creation) id = some entry := by
    intro id entry found
    rw [insert_kindOf, found]
    rfl
  constructor
  · intro row member invoice
    rcases List.mem_append.mp member with old | new
    · exact gate.rows row old invoice
    · obtain rfl := List.mem_singleton.mp new
      exact WorkflowStatus.noConfusion
  · intro entry member started id named
    obtain ⟨kind, payload, found, other⟩ := gate.tasks entry member started id named
    exact ⟨kind, payload, known found, other⟩
  · intro action member id named
    obtain ⟨kind, payload, found, law⟩ := gate.actions action member id named
    exact ⟨kind, payload, known found, law⟩

theorem gate_write (gate : Gate db) {write : Write}
    (other : ∀ entry, write = .audit entry → entry.action ≠ .taskStarted) :
    Gate (write.apply db) := by
  cases write with
  | schedule id lastRunAt nextRunAt => exact ⟨gate.rows, gate.tasks, gate.actions⟩
  | audit entry =>
    refine ⟨gate.rows, ?_, gate.actions⟩
    intro record member started id named
    rcases List.mem_append.mp member with old | new
    · exact gate.tasks record old started id named
    · obtain rfl := List.mem_singleton.mp new
      exact absurd started (other record rfl)

/-- A session that has just begun. -/
theorem safe_tasks {departments : List DepartmentCopy} {tasks : List Task}
    (writes : ∀ entry, .write (.audit entry) ∈ tasks → entry.action ≠ .taskStarted)
    (unfinished : ∀ workflow payload, .runWorkflow workflow payload ∈ tasks →
      workflow.kind = "finance_operations" → workflow.status.current ≠ .completed) :
    Safe { Process.idle with departments, tasks } :=
  ⟨fun _ held => (by cases held), writes, unfinished⟩

theorem Safe.resume (safe : Safe process) (sound : Sound call) : Safe (process.resume call) := by
  unfold Process.resume
  split
  · exact ⟨fun _ held => (by cases held), safe.writes, safe.tasks⟩
  · refine ⟨?_, safe.writes, safe.tasks⟩
    intro other held
    obtain rfl : call = other := Option.some.inj held
    exact sound

/-- A step leaves rows in which no invoice is past its approval, and a safe session. -/
def Holds [DecidableEq P] (s t : Lifecycle.World P) : Prop :=
  ∃ p db process, t = s.move p db process ∧ Gate db ∧ Safe process

variable [DecidableEq P]

theorem iterate_holds {p : P} {id : String} {createdAt : ℤ} (gate : Gate s.db)
    (safe : ∀ p, Safe (s.phase p))
    (taken : Lifecycle.step str s (.iterate p id createdAt) = some t) : Holds s t := by
  have own := safe p
  simp only [Lifecycle.step] at taken
  split at taken
  · rename_i now schedule tasks call queue
    have later : ∀ task ∈ tasks, task ∈ (s.phase p).tasks := by
      rw [queue]
      exact fun task member => List.mem_cons_of_mem _ member
    split at taken
    · obtain rfl := Option.some.inj taken
      exact ⟨p, _, _, rfl, gate, own.call, fun entry member => own.writes entry (later _ member),
        fun workflow payload member => own.tasks workflow payload (later _ member)⟩
    · rename_i copy held
      split at taken
      · obtain rfl := Option.some.inj taken
        refine ⟨p, _, _, rfl, gate_insert gate _, own.call, ?_, ?_⟩
        · intro entry member
          rcases List.mem_append.mp member with new | old
          · obtain rfl : entry = _ := by simpa using new
            exact AuditAction.noConfusion
          · exact own.writes entry (later _ old)
        · intro workflow payload member
          rcases List.mem_append.mp member with new | old
          · obtain ⟨rfl, _⟩ : workflow = _ ∧ payload = _ := by simpa using new
            exact fun _ => WorkflowStatus.noConfusion
          · exact own.tasks workflow payload (later _ old)
      · cases taken
  · cases taken

theorem commit_holds {p : P} (inv : LifecycleLaws.Inv s) (gate : Gate s.db)
    (safe : ∀ p, Safe (s.phase p)) (taken : Lifecycle.step str s (.commit p) = some t) :
    Holds s t := by
  have own := safe p
  simp only [Lifecycle.step] at taken
  split at taken
  · rename_i tasks call held
    split at taken
    · cases taken
    · obtain rfl := Option.some.inj taken
      have sound := own.call call held
      exact ⟨p, _, _, rfl, gate.advance inv.workflows ((inv.lawful p).call call held) sound,
        own.resume sound.advance⟩
  · rename_i write tasks call queue
    obtain rfl := Option.some.inj taken
    refine ⟨p, _, _, rfl, gate_write gate ?_, own.call, ?_, ?_⟩
    · rintro entry rfl
      exact own.writes entry (queue ▸ List.mem_cons_self)
    · exact fun entry member => own.writes entry (queue ▸ List.mem_cons_of_mem _ member)
    · exact fun workflow payload member =>
        own.tasks workflow payload (queue ▸ List.mem_cons_of_mem _ member)
  · rename_i workflow payload tasks call queue
    have first := own.tasks workflow payload (queue ▸ List.mem_cons_self)
    have known := (inv.lawful p).tasks workflow payload (queue ▸ List.mem_cons_self)
    have writes : ∀ entry, .write (.audit entry) ∈ tasks → entry.action ≠ .taskStarted :=
      fun entry member => own.writes entry (queue ▸ List.mem_cons_of_mem _ member)
    have later : ∀ workflow payload, .runWorkflow workflow payload ∈ tasks →
        workflow.kind = "finance_operations" → workflow.status.current ≠ .completed :=
      fun workflow payload member =>
        own.tasks workflow payload (queue ▸ List.mem_cons_of_mem _ member)
    split at taken
    · obtain rfl := Option.some.inj taken
      have sound := sound_enter (s.phase p) s.db payload first
      refine ⟨p, _, _, rfl,
        gate.advance inv.workflows ((inv.lawful p).enter known) sound, ?_, writes, later⟩
      intro other held
      obtain rfl := Option.some.inj held
      exact sound.advance
    · obtain rfl := Option.some.inj taken
      exact ⟨p, _, _, rfl, gate, own.call, writes, later⟩
  · cases taken

variable (table : CaseTable) (lit : LiteralPrinter)

theorem call_holds {p : P} {plan : Plan} {other : Behaviour} (inv : LifecycleLaws.Inv s)
    (gate : Gate s.db) (safe : ∀ p, Safe (s.phase p))
    (staffed : ∀ call ∈ (s.phase p).call,
      if call.session.workflow.kind = "finance_operations" then
        ∃ plan, other =
          FinanceOperations.run str table lit call.session.workflow.id call.payload plan
      else ∀ entry, .add (.audit entry) ∈ other.statements call.session.workflow.id →
        entry.action = .taskStarted → entry.workflowId = some call.session.workflow.id)
    (taken : Lifecycle.step str s (.call p plan other) = some t) : Holds s t := by
  have own := safe p
  simp only [Lifecycle.step] at taken
  split at taken
  · rename_i call held
    split at taken
    · rename_i ready
      obtain rfl := Option.some.inj taken
      have sound := (own.call call held).start str table lit s.db plan ready.2.2
        (staffed call held)
      have owns := ((inv.lawful p).call call held).start str plan ready.2.2
      exact ⟨p, _, _, rfl, gate.advance inv.workflows owns sound, own.resume sound.advance⟩
    · cases taken
  · cases taken

theorem app_holds {e : Lifecycle.Event P} (inv : LifecycleLaws.Inv s) (gate : Gate s.db)
    (safe : ∀ p, Safe (s.phase p))
    (staffed : ∀ p plan other, e = .call p plan other → ∀ call ∈ (s.phase p).call,
      if call.session.workflow.kind = "finance_operations" then
        ∃ plan, other =
          FinanceOperations.run str table lit call.session.workflow.id call.payload plan
      else ∀ entry, .add (.audit entry) ∈ other.statements call.session.workflow.id →
        entry.action = .taskStarted → entry.workflowId = some call.session.workflow.id)
    (taken : Lifecycle.step str s e = some t) : Holds s t := by
  cases e with
  | pause p departmentId =>
    simp only [Lifecycle.step] at taken
    split at taken
    · obtain ⟨department, found, rfl⟩ := Option.map_eq_some_iff.mp taken
      refine ⟨p, _, _, rfl, ⟨gate.rows, gate.tasks, gate.actions⟩, safe_tasks ?_ ?_⟩
      · intro entry member
        obtain rfl : entry = _ := by simpa using member
        exact AuditAction.noConfusion
      · simp
    · cases taken
  | kill p departmentId =>
    simp only [Lifecycle.step] at taken
    split at taken
    · obtain ⟨department, found, rfl⟩ := Option.map_eq_some_iff.mp taken
      refine ⟨p, _, _, rfl, ⟨gate.rows, gate.tasks, gate.actions⟩, safe_tasks ?_ ?_⟩
      · intro entry member
        obtain rfl : entry = _ := by simpa using member
        exact AuditAction.noConfusion
      · simp
    · cases taken
  | tick p now =>
    simp only [Lifecycle.step] at taken
    split at taken
    · obtain rfl := Option.some.inj taken
      refine ⟨p, _, _, rfl, gate, safe_tasks ?_ ?_⟩
      · simp
      · simp
    · cases taken
  | pass p =>
    simp only [Lifecycle.step] at taken
    split at taken
    · obtain rfl := Option.some.inj taken
      refine ⟨p, _, _, rfl, gate, safe_tasks ?_ ?_⟩
      · simp
      · intro workflow payload member invoice
        obtain ⟨row, selected, same⟩ := List.mem_map.mp member
        obtain ⟨rfl, rfl⟩ := Task.runWorkflow.inj same
        exact gate.rows row (Scheduler.pendingWorkflows_mem selected).1 invoice
    · cases taken
  | request p departmentId id createdAt =>
    simp only [Lifecycle.step] at taken
    split at taken
    · obtain ⟨department, found, rfl⟩ := Option.map_eq_some_iff.mp taken
      refine ⟨p, _, _, rfl, gate_insert gate _, safe_tasks ?_ ?_⟩
      · intro entry member
        obtain rfl : entry = _ := by simpa using member
        exact AuditAction.noConfusion
      · intro workflow payload member
        obtain ⟨rfl, _⟩ : workflow = _ ∧ payload = _ := by simpa using member
        exact fun _ => WorkflowStatus.noConfusion
    · cases taken
  | create p creation runImmediately =>
    simp only [Lifecycle.step] at taken
    split at taken
    · obtain rfl := Option.some.inj taken
      refine ⟨p, _, _, rfl, gate_insert gate _, safe_tasks ?_ ?_⟩
      · intro entry member
        cases runImmediately with
        | false =>
          obtain rfl : entry = _ := by simpa using member
          exact AuditAction.noConfusion
        | true =>
          obtain rfl : entry = _ := by simpa using member
          exact AuditAction.noConfusion
      · intro workflow payload member
        cases runImmediately with
        | false => simp at member
        | true =>
          obtain ⟨rfl, _⟩ : workflow = _ ∧ payload = _ := by simpa using member
          exact fun _ => WorkflowStatus.noConfusion
    · cases taken
  | iterate p id createdAt => exact iterate_holds gate safe taken
  | commit p => exact commit_holds inv gate safe taken
  | call p plan other => exact call_holds table lit inv gate safe (staffed p plan other rfl) taken

end Steps

/-! The decisions. -/

section Decisions

variable {R : Type} [DecidableEq R] {requests : R → DecisionRequest} {approvalId : String}
variable {db : CompanyDatabase} {desk : R → Decisions.Phase}

theorem isInvoice_sync {approval : Guardrails.ApprovalCopy} {copy : ActionCopy}
    {action : ExternalAction} (decided : approval.status.current ≠ .opened)
    (proposed : isInvoice action = true) :
    isInvoice ((syncDecision approval copy).flush action) = true := by
  have status : ((syncDecision approval copy).flush action).status ≠ .executed := by
    show Tracked.flush _ _ ≠ _
    unfold Tracked.flush
    split
    · simp only [isInvoice, Bool.and_eq_true, bne_iff_ne] at proposed
      exact proposed.2
    · unfold syncDecision
      cases verdict : approval.status.current with
      | opened => exact absurd verdict decided
      | approved => exact ExternalActionStatus.noConfusion
      | rejected => exact ExternalActionStatus.noConfusion
  simp only [isInvoice, Bool.and_eq_true, bne_iff_ne] at proposed ⊢
  exact ⟨proposed.1, status⟩

/-- A decision moves an invoice's action, and no workflow. -/
theorem decision_holds {e : Decisions.Event R} {w : Decisions.World R} (gate : Gate db)
    (decided : ∀ r, Decided (desk r))
    (taken : Decisions.step requests approvalId ⟨db.toDatabase, desk⟩ e = some w) :
    Gate { db with toDatabase := w.db } ∧ (∀ r, Decided (w.phase r)) ∧
      w.db.workflows = db.workflows := by
  have others : ∀ {i : R} {store : Database} {phase : Decisions.Phase}, Decided phase → ∀ r,
      Decided (((⟨db.toDatabase, desk⟩ : Decisions.World R).move i store phase).phase r) :=
    fun here => forall_move here fun r _ => decided r
  cases e with
  | read i =>
    simp only [Decisions.step] at taken
    split at taken
    · split at taken
      · obtain rfl := Option.some.inj taken
        exact ⟨⟨gate.rows, gate.tasks, gate.actions⟩, others trivial, rfl⟩
      · obtain rfl := Option.some.inj taken
        exact ⟨⟨gate.rows, gate.tasks, gate.actions⟩, others trivial, rfl⟩
    · cases taken
  | decide i now =>
    simp only [Decisions.step] at taken
    split at taken
    · obtain rfl := Option.some.inj taken
      refine ⟨⟨gate.rows, gate.tasks, gate.actions⟩, others ?_, rfl⟩
      show (requests i).decision ≠ .opened
      unfold DecisionRequest.decision
      split <;> exact ApprovalStatus.noConfusion
    · cases taken
  | record i =>
    simp only [Decisions.step] at taken
    split at taken
    · rename_i approval held
      obtain rfl := Option.some.inj taken
      have own := decided i
      rw [show desk i = _ from held] at own
      refine ⟨⟨gate.rows, ?_, gate.actions⟩, others own, rfl⟩
      intro entry member started id named
      rcases List.mem_append.mp member with old | new
      · exact gate.tasks entry old started id named
      · obtain rfl := List.mem_singleton.mp new
        cases started
    · cases taken
  | readAction i =>
    simp only [Decisions.step] at taken
    split at taken
    · rename_i approval held
      have own := decided i
      rw [show desk i = _ from held] at own
      split at taken
      · obtain rfl := Option.some.inj taken
        exact ⟨⟨gate.rows, gate.tasks, gate.actions⟩, others trivial, rfl⟩
      · obtain rfl := Option.some.inj taken
        exact ⟨⟨gate.rows, gate.tasks, gate.actions⟩, others own, rfl⟩
    · cases taken
  | sync i =>
    simp only [Decisions.step] at taken
    split at taken
    · rename_i approval copy held
      obtain rfl := Option.some.inj taken
      have own := decided i
      rw [show desk i = _ from held] at own
      refine ⟨⟨gate.rows, gate.tasks, ?_⟩, others trivial, rfl⟩
      intro action member id named
      rcases Table.mem_update member with ⟨old, _⟩ | ⟨old, inside, _, rfl⟩
      · exact gate.actions action old id named
      · obtain ⟨kind, payload, known, law⟩ := gate.actions old inside id named
        exact ⟨kind, payload, known, fun invoice => isInvoice_sync own (law invoice)⟩
    · cases taken

end Decisions

/-! Runs. -/

section Runs

variable {P R : Type} [DecidableEq P] [DecidableEq R] {str : Value → String}
variable {requests : R → DecisionRequest} {approvals : R → String}
variable {table : CaseTable} {lit : LiteralPrinter}
variable {start s t : Office P R} {e : Event P R} {es : List (Event P R)}

structure Law (s : Office P R) : Prop where
  inv : LifecycleLaws.Inv s.app
  gate : Gate s.app.db
  safe : ∀ p, Safe (s.app.phase p)
  decided : ∀ r, Decided (s.desk r)

omit [DecidableEq P] [DecidableEq R] in
theorem law_initial (initial : Initial start) : Law start := by
  refine ⟨inv_initial ⟨initial.closed, ?_, initial.agents⟩, ⟨?_, ?_, ?_⟩, ?_, ?_⟩
  · rw [initial.workflows]
    exact List.nodup_nil
  · simp [initial.workflows]
  · simp [initial.audits]
  · simp [initial.actions]
  · intro p
    rw [initial.closed p]
    exact ⟨fun _ held => (by cases held), by simp [Process.idle], by simp [Process.idle]⟩
  · intro r
    rw [initial.waiting r]
    trivial

theorem law_step (law : Law s)
    (taken : Guarded (Staffed str table lit) (ofPartial (step str requests approvals)) s e t) :
    Law t := by
  obtain ⟨staffed, moved⟩ := taken
  cases e with
  | app e =>
    obtain ⟨app, taken, rfl⟩ := Option.map_eq_some_iff.mp moved
    have next := inv_step law.inv taken
    obtain ⟨p, db, process, rfl, gate, safe⟩ := app_holds table lit law.inv
      law.gate law.safe (fun p plan other same call held => by
        subst same
        exact staffed call held) taken
    exact ⟨next, gate, forall_move safe fun q _ => law.safe q, law.decided⟩
  | decision e =>
    obtain ⟨w, taken, rfl⟩ := Option.map_eq_some_iff.mp moved
    obtain ⟨gate, decided, rows⟩ := decision_holds law.gate law.decided taken
    have extends_ : Extends s.app.db { s.app.db with toDatabase := w.db } := by
      refine ⟨fun id workflow found => ?_, rfl⟩
      show (Table.get Workflow.id w.db.workflows id).map _ = _
      rw [rows]
      exact found
    refine ⟨⟨?_, law.inv.agents, fun p => (law.inv.lawful p).extend extends_⟩, gate, law.safe,
      decided⟩
    show (w.db.workflows.map Workflow.id).Nodup
    rw [rows]
    exact law.inv.workflows

/-- Whatever the sessions and the decisions do: no workflow of an invoice is ever completed, no tool
is ever started for it, and every action that it names is the creation of an invoice that needs an
approval and that nothing has executed. -/
theorem invoices_wait (initial : Initial start)
    (run : Run (Guarded (Staffed str table lit) (ofPartial (step str requests approvals)))
      start es s) :
    ∀ row ∈ s.app.db.workflows, row.kind = "finance_operations" →
      row.status ≠ .completed ∧
      (∀ entry ∈ s.app.db.auditLogs, entry.workflowId = some row.id →
        entry.action ≠ .taskStarted) ∧
      ∀ action ∈ s.app.db.externalActions, action.workflowId = some row.id →
        isInvoice action = true := by
  intro row member invoice
  have law := run.invariant (fun _ _ _ law taken => law_step law taken) (law_initial initial)
  have known : kindOf s.app.db row.id = some (row.kind, row.payload) := by
    show (Table.get Workflow.id s.app.db.workflows row.id).map _ = _
    rw [Table.get_of_mem law.inv.workflows member]
    rfl
  refine ⟨law.gate.rows row member invoice, ?_, ?_⟩
  · intro entry inside named started
    obtain ⟨kind, payload, found, other⟩ := law.gate.tasks entry inside started row.id named
    rw [known] at found
    exact other ((Prod.mk.inj (Option.some.inj found)).1.symm.trans invoice)
  · intro action inside named
    obtain ⟨kind, payload, found, proposed⟩ := law.gate.actions action inside row.id named
    rw [known] at found
    exact proposed ((Prod.mk.inj (Option.some.inj found)).1.symm.trans invoice)

end Runs

section Sample

def sampleText : Value → String := fun _ => "None"

def sampleOffice : Office Unit Unit where
  app :=
    { db :=
        { toDatabase := .empty
          departments := []
          agentInstances := []
          departmentSchedules := [] }
      phase := fun _ => .idle }
  desk := fun _ => .waiting

def sampleTool : FinanceOperations.ToolRun := ⟨"t", none, 0, 0, .ok (.dict [])⟩

def samplePlan : FinanceOperations.Plan where
  ids := ⟨"x", "a", "k", "h"⟩
  invoice := sampleTool
  overdue := sampleTool
  reconciliation := sampleTool
  approvalId := "b"
  cut := none

/-- The plan of a department's agent, which an invoice's workflow does not call. -/
def sampleOther : Plan where
  inspection := .null
  eventId := "e"
  classify := fun _ => ⟨"low", false, []⟩
  ids := fun _ => samplePlan.ids
  escalationId := "f"
  cut := none

def sampleAgent : Behaviour :=
  FinanceOperations.run sampleText plainTable plainPrinter "w" (.object []) samplePlan

/-- Every call is that of the sample's agent. -/
def SampleStaffed (s : Office Unit Unit) : Event Unit Unit → Prop
  | .app (.call p _ other) => ∀ call ∈ (s.app.phase p).call,
    call.session.workflow.kind = "finance_operations" ∧ call.session.workflow.id = "w" ∧
      call.payload = .object [] ∧ other = sampleAgent
  | _ => True

instance (s : Office Unit Unit) (e : Event Unit Unit) : Decidable (SampleStaffed s e) :=
  match e with
  | .app (.call p _ other) => inferInstanceAs (Decidable (∀ call ∈ (s.app.phase p).call,
      call.session.workflow.kind = "finance_operations" ∧ call.session.workflow.id = "w" ∧
        call.payload = .object [] ∧ other = sampleAgent))
  | .app (.pause _ _) | .app (.kill _ _) | .app (.tick _ _) | .app (.pass _)
  | .app (.request _ _ _ _) | .app (.create _ _ _) | .app (.iterate _ _ _) | .app (.commit _)
  | .decision _ => isTrue trivial

theorem sampleStaffed_staffed {s : Office Unit Unit} {e : Event Unit Unit}
    (staffed : SampleStaffed s e) : Staffed sampleText plainTable plainPrinter s e := by
  cases e with
  | decision e => trivial
  | app e =>
    cases e with
    | call p plan other =>
      intro call held
      obtain ⟨invoice, id, payload, same⟩ := staffed call held
      rw [if_pos invoice, id, payload]
      exact ⟨samplePlan, same⟩
    | _ => trivial

/-- An invoice is run up to its approval, and approved. -/
def sampleEvents : List (Event Unit Unit) :=
  .app (.create () ⟨"w", "finance_operations", "Invoice", .object [], "stripe", 0⟩ true) ::
    List.replicate 3 (.app (.commit ())) ++ .app (.call () sampleOther sampleAgent) ::
    List.replicate 8 (.app (.commit ())) ++
    [.decision (.read ()), .decision (.decide () 5), .decision (.record ()),
      .decision (.readAction ()), .decision (.sync ())]

def sampleRequests : Unit → DecisionRequest := fun _ => ⟨"approved", "owner", none⟩

def sampleAfter : Office Unit Unit :=
  (sampleEvents.foldlM (fun s e =>
    if SampleStaffed s e then step sampleText sampleRequests (fun _ => "a") s e else none)
    sampleOffice).getD sampleOffice

/-- Behind its approval the workflow waits on. -/
theorem invoices_wait_sample : ∃ row ∈ sampleAfter.app.db.workflows,
    row.kind = "finance_operations" ∧ row.status = .waitingForHuman ∧
      ∃ action ∈ sampleAfter.app.db.externalActions, action.workflowId = some row.id ∧
        isInvoice action = true ∧ action.status = .approved := by
  have runs : (sampleEvents.foldlM (fun s e =>
      if SampleStaffed s e then step sampleText sampleRequests (fun _ => "a") s e else none)
      sampleOffice).isSome := by decide +kernel
  obtain ⟨last, ran⟩ := Option.isSome_iff_exists.mp runs
  have after : last = sampleAfter := by
    rw [sampleAfter, ran]
    rfl
  have run : Run (Guarded (Staffed sampleText plainTable plainPrinter)
      (ofPartial (step sampleText sampleRequests fun _ => "a"))) sampleOffice sampleEvents
      sampleAfter := by
    rw [← after]
    exact (Run.of_guarded_foldlM ran).mono
      fun _ _ _ taken => ⟨sampleStaffed_staffed taken.1, taken.2⟩
  have initial : Initial sampleOffice :=
    ⟨fun _ => rfl, fun _ => rfl, rfl, rfl, rfl, List.nodup_nil⟩
  have wait := invoices_wait initial run
  have ends : ∃ row ∈ sampleAfter.app.db.workflows, row.kind = "finance_operations" ∧
      row.status = .waitingForHuman ∧ ∃ action ∈ sampleAfter.app.db.externalActions,
        action.workflowId = some row.id ∧ action.status = .approved := by decide +kernel
  obtain ⟨row, member, invoice, status, action, inside, named, approved⟩ := ends
  exact ⟨row, member, invoice, status, action, inside, named,
    (wait row member invoice).2.2 action inside named, approved⟩

end Sample

end BusinessOs.App.InvoiceGate
