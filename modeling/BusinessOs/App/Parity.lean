/- Source: rust/src/orchestrator.rs, rust/src/state_machine.rs, app/agents/orchestrator.py,
     app/services/workflows.py, app/services/escalation.py, app/agents/delivery_monitoring.py,
     app/services/memory.py
   digest: The two orchestrators, driven by the same outcomes of a workflow's agent. -/

import BusinessOs.App.FlushFailures
import BusinessOs.Core.RetryRuns

set_option autoImplicit false
set_option relaxedAutoImplicit false

namespace BusinessOs.App.Parity

open BusinessOs.Lib BusinessOs.Lib.Execution BusinessOs.Lib.Json.Tree
open BusinessOs.App.Models BusinessOs.App.Workflows BusinessOs.App.Company
open BusinessOs.App.Sessions BusinessOs.App.Orchestrator BusinessOs.App.FlushFailures
open BusinessOs.Core.RetryRuns (Failed LastFailure Settled running started)

universe u

/-- The records of a workflow's life, which both audit logs have. -/
inductive LifeAction
  | created | started | completed | failed | escalationCreated
  deriving DecidableEq

def ofPython : AuditAction → Option LifeAction
  | .workflowCreated => some .created
  | .workflowStarted => some .started
  | .workflowCompleted => some .completed
  | .workflowFailed => some .failed
  | .escalationCreated => some .escalationCreated
  | _ => none

def ofCore : Core.Types.AuditAction → Option LifeAction
  | .workflowCreated => some .created
  | .workflowStarted => some .started
  | .workflowCompleted => some .completed
  | .workflowFailed => some .failed
  | .escalationCreated => some .escalationCreated
  | _ => none

/-- Those of one workflow, in order. -/
def lifeOf (id : String) (entries : List AuditLog) : List LifeAction :=
  entries.filterMap fun entry => if entry.workflowId = some id then ofPython entry.action else none

def coreLife {ω : Type u} (id : String) (orchestrator : Core.Dispatch.Orchestrator ω) :
    List LifeAction :=
  (orchestrator.audit.actionsFor id).filterMap ofCore

/-- The name of a kind in the other orchestrator. -/
def kindName : Core.Types.WorkflowKind → String
  | .leadQualification => "lead_qualification"
  | .clientOnboarding => "client_onboarding"
  | .deliveryMonitoring => "delivery_monitoring"
  | .financeOperations => "finance_operations"
  | .knowledgeCommunication => "knowledge_communication"

def statusOf : Core.Types.WorkflowStatus → WorkflowStatus
  | .pending => .pending
  | .running => .running
  | .waitingForHuman => .waitingForHuman
  | .completed => .completed
  | .failed => .failed
  | .cancelled => .cancelled

/-- The two orchestrators with one workflow each. -/
structure Pair (ω : Type u) where
  orchestrator : Core.Dispatch.Orchestrator ω
  workflow : Core.Types.Workflow
  db : CompanyDatabase

/-- One call of `run_workflow` on either side. -/
structure Call (ω : Type u) where
  world : ω
  readings : Core.Dispatch.Readings
  attempt : Attempt

/-- What the agent itself records of the workflow's life. -/
def own (id : String) (behaviour : Behaviour) : List LifeAction :=
  lifeOf id (rowsIn Row.audit? (behaviour.statements id))

variable {ω : Type u}

def advance (id : String) (p : Pair ω) (call : Call ω) : Pair ω :=
  let (orchestrator, workflow, _) :=
    p.orchestrator.runWorkflow p.workflow call.world call.readings
  { orchestrator
    workflow
    db := match p.db.workflow id with
      | none => p.db
      | some row => call.attempt.run (.load row) p.db }

/-- Where the call reaches an agent, the two agents both succeed or both fail. -/
def SameOutcome (id : String) (p : Pair ω) (call : Call ω) : Prop :=
  ∀ outcome, p.orchestrator.invocation p.workflow call.world call.readings = some outcome →
    ∀ row ∈ p.db.workflow id, Failed outcome = call.attempt.agentFails (.load row)

/-- Both sides are called, on a pending workflow, and the agent asks no human. -/
def Driven (id : String) (p : Pair ω) (call : Call ω) (q : Pair ω) : Prop :=
  p.workflow.status = .pending ∧ SameOutcome id p call ∧
    .waitForHuman ∉ call.attempt.behaviour.statements id ∧ q = advance id p call

/-- The store refuses the flush of no commit. -/
def Flushes (id : String) (p : Pair ω) (call : Call ω) : Prop :=
  ∀ row ∈ p.db.workflow id, call.attempt.failure (.load row) = none

def Step (id : String) (p : Pair ω) (call : Call ω) (q : Pair ω) : Prop :=
  Flushes id p call ∧ Driven id p call q

/-- The two workflows have the same status and attempts. -/
structure Agree (row : Workflow) (workflow : Core.Types.Workflow) : Prop where
  kind : row.kind = kindName workflow.kind
  status : row.status = statusOf workflow.status
  attempts : row.attempts = workflow.attempts.toNat
  maxAttempts : row.maxAttempts = workflow.maxAttempts.toNat

structure Related (id : String) (p : Pair ω) : Prop where
  agent : (p.orchestrator.registry.get p.workflow.kind).isSome
  row : ∃ row, p.db.workflow id = some row ∧ Agree row p.workflow
  room : p.workflow.status = .pending →
    p.workflow.attempts.toNat < max 1 p.workflow.maxAttempts.toNat

theorem lifeOf_append (id : String) (first rest : List AuditLog) :
    lifeOf id (first ++ rest) = lifeOf id first ++ lifeOf id rest :=
  List.filterMap_append

theorem kindName_supported {row : Workflow} {kind : Core.Types.WorkflowKind}
    (named : row.kind = kindName kind) : (WorkflowCopy.load row).supported = true := by
  cases kind <;> simp [WorkflowCopy.supported, WorkflowCopy.load, named, kindName]

section Records

/-- What the orchestrator records behind a running workflow's outcome. -/
def tail (row : Workflow) (outcome : Except String Value) : List LifeAction :=
  match outcome with
  | .ok _ => [.completed]
  | .error _ =>
    if row.attempts + 1 < row.maxAttempts then [.failed] else [.failed, .escalationCreated]

theorem finishRecords_life (left : WorkflowCopy) (escalationId : String)
    (outcome : Except String Value) (row : Workflow) (id : left.id = row.id)
    (quiet : left.status.current ≠ .waitingForHuman)
    (attempts : left.attempts.current = row.attempts + 1)
    (maxAttempts : left.maxAttempts = row.maxAttempts) :
    lifeOf row.id ((finishRecords left escalationId outcome).filterMap fun record =>
      (Orchestrator.row record).audit?) = tail row outcome := by
  cases outcome with
  | ok result =>
    simp [finishRecords, quiet, Orchestrator.row, Row.audit?, lifeOf, ofPython, tail, id]
  | error exc =>
    by_cases retry : row.attempts + 1 < row.maxAttempts
    · simp [finishRecords, attempts, maxAttempts, retry, Orchestrator.row, Row.audit?, lifeOf,
        ofPython, tail, id]
    · simp [finishRecords, attempts, maxAttempts, retry, Orchestrator.row, Row.audit?, lifeOf,
        ofPython, tail, id]

/-- The log after a call whose agent asks nobody. -/
theorem runWorkflow_life {db : CompanyDatabase} {row : Workflow} (behaviour : Behaviour)
    (escalationId : String) (supported : (WorkflowCopy.load row).supported = true)
    (quiet : .waitForHuman ∉ behaviour.statements row.id) :
    lifeOf row.id (runWorkflow (.load row) behaviour escalationId db).auditLogs =
      lifeOf row.id db.auditLogs ++ .started :: own row.id behaviour ++
        tail row behaviour.outcome := by
  have rows : (runWorkflow (.load row) behaviour escalationId db).auditLogs =
      db.auditLogs ++ rowsIn Row.audit?
        (settled (program (.load row) behaviour escalationId)) :=
    audits_grow.committed rfl
  have first : lifeOf row.id (rowsIn Row.audit? (opening (.load row))) = [.started] := by
    simp [opening, rowsIn, Orchestrator.row, startedRecord, Row.audit?, lifeOf, ofPython,
      WorkflowCopy.load]
  obtain ⟨attempts, maxAttempts, status⟩ :=
    before_copy row (statements_byAgent row.id behaviour)
  rw [if_neg quiet] at status
  have last := finishRecords_life
    (copyAfter (.load row) (opening (.load row) ++ behaviour.statements row.id)) escalationId
    behaviour.outcome row (copyAfter_id _) (by rw [status]; simp) attempts maxAttempts
  rw [rows, program_supported behaviour escalationId supported, settled_closing, rowsIn_append,
    rowsIn_append, closing_rows, lifeOf_append, lifeOf_append, lifeOf_append, last, first]
  simp [own]

end Records

section Steps

variable {id : String} {p q : Pair ω} {call : Call ω}

/-- The two exhaustion checks agree. -/
theorem last_iff {row : Workflow} {workflow : Core.Types.Workflow} (agree : Agree row workflow)
    (room : workflow.attempts.toNat < max 1 workflow.maxAttempts.toNat) :
    workflow.maxAttempts ≤ workflow.attempts + 1 ↔ ¬ row.attempts + 1 < row.maxAttempts := by
  have small : workflow.maxAttempts.toNat < 2 ^ 32 := workflow.maxAttempts.toNat_lt
  rw [UInt32.le_iff_toNat_le, UInt32.toNat_add, UInt32.toNat_one, agree.attempts,
    agree.maxAttempts]
  omega

theorem agentFails_eq {attempt : Attempt} {workflow : WorkflowCopy}
    (fine : attempt.failure workflow = none) :
    attempt.agentFails workflow = Failed attempt.behaviour.outcome := by
  rw [Attempt.agentFails, fine, Option.any_none, Bool.or_false]
  cases attempt.behaviour.outcome <;> rfl

/-- What one call leaves of status and log on the side of the other orchestrator, in the terms of
this one. -/
theorem settled_agrees {row : Workflow} {workflow workflow' : Core.Types.Workflow}
    {o o' : Core.Dispatch.Orchestrator ω} {now : ℤ} {stamp : Core.Audit.Stamp}
    {outcome : Except String Value} {behaviour : Behaviour} (agree : Agree row workflow)
    (room : workflow.attempts.toNat < max 1 workflow.maxAttempts.toNat)
    (settled : Settled (started o workflow stamp) (running workflow now) outcome o' workflow')
    (same : Failed outcome = Failed behaviour.outcome)
    (quiet : .waitForHuman ∉ behaviour.statements row.id) :
    finalStatus row behaviour = statusOf workflow'.status ∧
      coreLife workflow.id o' =
        coreLife workflow.id o ++ .started :: tail row behaviour.outcome := by
  have last := last_iff agree room
  have status := settled.status
  have log : coreLife workflow.id o' = coreLife workflow.id o ++ .started ::
      ([if Failed outcome then Core.Types.AuditAction.workflowFailed else .workflowCompleted] ++
        if LastFailure (running workflow now) outcome
          then [Core.Types.AuditAction.escalationCreated] else []
        ).filterMap ofCore := by
    have own : (running workflow now).id = workflow.id := rfl
    unfold coreLife
    rw [settled.log, if_pos own]
    simp [started, ofCore]
  have check : LastFailure (running workflow now) outcome =
      (Failed outcome && !decide (row.attempts + 1 < row.maxAttempts)) := by
    show (Failed outcome && decide (workflow.maxAttempts ≤ workflow.attempts + 1)) = _
    rw [decide_eq_decide.mpr last, decide_not]
  rw [check] at status log
  rw [status, log]
  unfold finalStatus
  cases answer : behaviour.outcome with
  | ok result =>
    rw [answer] at same
    have succeeded : Failed outcome = false := same
    simp [succeeded, quiet, statusOf, tail, ofCore]
  | error exc =>
    rw [answer] at same
    have failed : Failed outcome = true := same
    by_cases retry : row.attempts + 1 < row.maxAttempts
    · simp [failed, retry, statusOf, tail, ofCore]
    · simp [failed, retry, statusOf, tail, ofCore]

/-- After a call the two workflows agree again, and both logs have grown by the start and the
same records behind it, but for what the agent has recorded itself. -/
theorem related_step (related : Related id p) (step : Step id p call q) :
    Related id q ∧ q.workflow.id = p.workflow.id ∧ ∃ ending,
      coreLife p.workflow.id q.orchestrator =
        coreLife p.workflow.id p.orchestrator ++ .started :: ending ∧
      lifeOf id q.db.auditLogs =
        lifeOf id p.db.auditLogs ++ .started :: own id call.attempt.behaviour ++ ending := by
  obtain ⟨flushes, pending, same, quiet, rfl⟩ := step
  obtain ⟨agent, ⟨row, found, agree⟩, room⟩ := related
  have fine := flushes row found
  have below := room pending
  obtain rfl : row.id = id := (Table.get_mem found).2
  have supported := kindName_supported agree.kind
  have db : (advance row.id p call).db =
      runWorkflow (.load row) call.attempt.behaviour call.attempt.escalationId p.db := by
    simp only [advance, found, Attempt.run, fine]
  rcases Core.RetryRuns.run_cases p.orchestrator p.workflow call.world call.readings with
    ⟨_, outcome, answered, settled⟩ | ⟨cannot | none_, _⟩
  · obtain ⟨status, log⟩ : finalStatus row call.attempt.behaviour =
        statusOf (advance row.id p call).workflow.status ∧ _ :=
      settled_agrees agree below settled
        ((same outcome answered row found).trans (agentFails_eq fine)) quiet
    obtain ⟨next, after, nextStatus, nextAttempts, nextMax, nextKind⟩ :=
      runWorkflow_row call.attempt.behaviour call.attempt.escalationId found supported
    have attempts : (advance row.id p call).workflow.attempts = p.workflow.attempts + 1 :=
      settled.attempts
    have maxAttempts : (advance row.id p call).workflow.maxAttempts = p.workflow.maxAttempts :=
      settled.maxAttempts
    have small : p.workflow.maxAttempts.toNat < 2 ^ 32 := p.workflow.maxAttempts.toNat_lt
    have count : (advance row.id p call).workflow.attempts.toNat =
        p.workflow.attempts.toNat + 1 := by
      rw [attempts, UInt32.toNat_add, UInt32.toNat_one]
      omega
    refine ⟨⟨?_, ⟨next, ?_, ?_⟩, ?_⟩, settled.id, tail row call.attempt.behaviour.outcome, log, ?_⟩
    · have registry : (advance row.id p call).orchestrator.registry =
          p.orchestrator.registry := settled.registry
      have kind : (advance row.id p call).workflow.kind = p.workflow.kind := settled.kind
      rw [registry, kind]
      exact agent
    · rw [db]
      exact after
    · refine ⟨?_, nextStatus.trans status, ?_, ?_⟩
      · rw [nextKind, agree.kind]
        exact congrArg kindName settled.kind.symm
      · rw [nextAttempts, agree.attempts, count]
        rfl
      · rw [nextMax, agree.maxAttempts, maxAttempts]
    · intro again
      rw [again] at status
      have left := finalStatus_pending status
      rw [agree.attempts, agree.maxAttempts] at left
      rw [count, maxAttempts]
      omega
    · rw [db]
      exact runWorkflow_life call.attempt.behaviour call.attempt.escalationId supported quiet
  · rw [pending] at cannot
    cases cannot
  · rw [none_] at agent
    cases agent

/-- A log behind calls, for the records behind each of their starts. -/
def woven (id : String) (calls : List (Call ω)) (endings : List (List LifeAction)) :
    List LifeAction :=
  (List.zipWith (fun call ending => .started :: own id call.attempt.behaviour ++ ending) calls
    endings).flatten

theorem woven_quiet {calls : List (Call ω)} {endings : List (List LifeAction)}
    (length : endings.length = calls.length)
    (quiet : ∀ call ∈ calls, own id call.attempt.behaviour = []) :
    woven id calls endings = endings.flatMap fun ending => .started :: ending := by
  induction calls generalizing endings with
  | nil =>
    obtain rfl := List.length_eq_zero_iff.mp length
    rfl
  | cons call calls ih =>
    cases endings with
    | nil => cases length
    | cons ending endings =>
      have rest := ih (Nat.succ.inj length)
        fun other member => quiet other (List.mem_cons_of_mem _ member)
      have first : own id call.attempt.behaviour = [] := quiet call List.mem_cons_self
      show (LifeAction.started :: own id call.attempt.behaviour ++ ending) ++
        woven id calls endings = _
      rw [first, rest]
      rfl

theorem related_run {calls : List (Call ω)} (run : Run (Step id) p calls q)
    (related : Related id p) :
    Related id q ∧ q.workflow.id = p.workflow.id ∧
      ∃ endings : List (List LifeAction), endings.length = calls.length ∧
      coreLife p.workflow.id q.orchestrator = coreLife p.workflow.id p.orchestrator ++
        endings.flatMap (fun ending => .started :: ending) ∧
      lifeOf id q.db.auditLogs = lifeOf id p.db.auditLogs ++ woven id calls endings := by
  induction run with
  | nil p => exact ⟨related, rfl, [], rfl, (List.append_nil _).symm, (List.append_nil _).symm⟩
  | cons first _ ih =>
    obtain ⟨next, sameId, ending, coreLog, log⟩ := related_step related first
    obtain ⟨last, lastId, endings, length, coreLogs, logs⟩ := ih next
    refine ⟨last, lastId.trans sameId, ending :: endings, congrArg _ length, ?_, ?_⟩
    · rw [sameId] at coreLogs
      rw [coreLogs, coreLog]
      simp
    · rw [logs, log]
      simp [woven]

end Steps

/-- A new workflow of one kind in both orchestrators, with an agent for it. -/
structure Fresh (ω : Type u) where
  orchestrator : Core.Dispatch.Orchestrator ω
  kind : Core.Types.WorkflowKind
  payload : Value
  source : String
  uuid : String
  now : ℤ
  stamp : Core.Audit.Stamp
  db : CompanyDatabase
  creation : Creation
  agent : (orchestrator.registry.get kind).isSome
  named : creation.kind = kindName kind
  newCore : orchestrator.audit.actionsFor ("wf_" ++ uuid) = []
  newRow : db.workflow creation.id = none
  newLog : lifeOf creation.id db.auditLogs = []

/-- The limit of the one workflow is set to that of the other. -/
def Fresh.start (fresh : Fresh ω) : Pair ω :=
  let (orchestrator, workflow) := fresh.orchestrator.submitWorkflow fresh.kind fresh.payload
    fresh.source fresh.uuid fresh.now fresh.stamp
  let row := { fresh.creation.row with maxAttempts := workflow.maxAttempts.toNat }
  { orchestrator
    workflow
    db := { createWorkflow fresh.creation fresh.db with
      workflows := fresh.db.workflows ++ [row] } }

section Start

variable (fresh : Fresh ω)

theorem start_related : Related fresh.creation.id fresh.start := by
  refine ⟨fresh.agent, ⟨{ fresh.creation.row with
    maxAttempts := fresh.start.workflow.maxAttempts.toNat }, ?_, ?_⟩, ?_⟩
  · show Table.get Workflow.id (fresh.db.workflows ++ [_]) _ = _
    rw [Table.get_append]
    show (fresh.db.workflow fresh.creation.id).or _ = _
    rw [fresh.newRow, Option.none_or]
    exact if_pos rfl
  · exact ⟨fresh.named, rfl, rfl, rfl⟩
  · intro _
    exact Nat.lt_of_lt_of_le Nat.zero_lt_one (Nat.le_max_left 1 _)

theorem start_life : coreLife fresh.start.workflow.id fresh.start.orchestrator = [.created] ∧
    lifeOf fresh.creation.id fresh.start.db.auditLogs = [.created] := by
  constructor
  · unfold coreLife
    simp only [Fresh.start, Core.Dispatch.Orchestrator.submitWorkflow,
      Core.Audit.actionsFor_created, fresh.newCore]
    rfl
  · show lifeOf fresh.creation.id (fresh.db.auditLogs ++ [_]) = _
    rw [lifeOf_append, fresh.newLog]
    simp [lifeOf, ofPython]

end Start

/-- After every call the two workflows have the same status and attempts, and the two logs the
same records of the workflow's life, but for those that its agent has made itself. -/
theorem simulation (fresh : Fresh ω) {calls : List (Call ω)} {p : Pair ω}
    (run : Run (Step fresh.creation.id) fresh.start calls p) :
    (∃ row, p.db.workflow fresh.creation.id = some row ∧
      row.status = statusOf p.workflow.status ∧ row.attempts = p.workflow.attempts.toNat) ∧
    (∃ endings : List (List LifeAction), endings.length = calls.length ∧
      coreLife fresh.start.workflow.id p.orchestrator =
        .created :: endings.flatMap (fun ending => .started :: ending) ∧
      lifeOf fresh.creation.id p.db.auditLogs =
        .created :: woven fresh.creation.id calls endings) ∧
    ((∀ call ∈ calls, own fresh.creation.id call.attempt.behaviour = []) →
      lifeOf fresh.creation.id p.db.auditLogs =
        coreLife fresh.start.workflow.id p.orchestrator) := by
  obtain ⟨related, _, endings, length, coreLog, log⟩ := related_run run (start_related fresh)
  obtain ⟨coreFirst, first⟩ := start_life fresh
  rw [coreFirst] at coreLog
  rw [first] at log
  obtain ⟨row, found, agree⟩ := related.row
  refine ⟨⟨row, found, agree.status, agree.attempts⟩, ⟨endings, length, coreLog, log⟩, ?_⟩
  intro quiet
  rw [log, coreLog, woven_quiet length quiet]

section Sample

def sampleRisk : Escalation where
  id := "e"
  workflowId := some "w"
  severity := "medium"
  owner := "delivery-lead"
  reason := "Delivery risks detected for Acme"
  context := .object [("project_id", .string "p-1"), ("risks", .array [.object
    [("type", .string "communication_gap"), ("severity", .string "medium"),
      ("detail", .string "No recent client communication recorded.")]])]

/-- The delivery agent remembers the status, posts it, and escalates the risk that it has found:
`EscalationService.create` adds the row, and then the record. -/
def sampleDelivery : Behaviour :=
  .returns
    [.work .elsewhere quiet_elsewhere, .work .commit quiet_commit,
      .work .elsewhere quiet_elsewhere, .work .commit quiet_commit,
      .work (.add (.escalation sampleRisk)) rfl, .work .commit quiet_commit,
      .work (.add (.audit
        { workflowId := some "w"
          action := .escalationCreated
          actor := "system"
          message := sampleRisk.reason
          metadata := .object [("severity", .string sampleRisk.severity),
            ("owner", .string sampleRisk.owner), ("escalation_id", .string sampleRisk.id)] })) rfl,
      .work .commit quiet_commit]
    (.object [("escalation_id", .string "e")])

def sampleFresh : Fresh (Except String Value) where
  orchestrator := (Core.Dispatch.Orchestrator.new .default).withAgent .deliveryMonitoring
    Core.RetryRuns.scripted
  kind := .deliveryMonitoring
  payload := .object []
  source := "api"
  uuid := "u"
  now := 0
  stamp := ⟨"c", 0⟩
  db := ⟨.empty, [], [], []⟩
  creation := ⟨"w", "delivery_monitoring", "Delivery", .object [], "api", 0⟩
  agent := rfl
  named := rfl
  newCore := rfl
  newRow := rfl
  newLog := rfl

def sampleRow : Workflow :=
  { sampleFresh.creation.row with maxAttempts := sampleFresh.start.workflow.maxAttempts.toNat }

def sampleCall (attempt : Attempt) (outcome : Except String Value) :
    Call (Except String Value) :=
  ⟨outcome, Core.RetryRuns.sampleReadings, attempt⟩

/-- One call of the sample, whose agents do the same on both sides. -/
theorem sample_driven (attempt : Attempt) (outcome : Except String Value)
    (same : Failed outcome = attempt.agentFails (.load sampleRow))
    (quiet : .waitForHuman ∉ attempt.behaviour.statements "w") :
    Driven "w" sampleFresh.start (sampleCall attempt outcome)
      (advance "w" sampleFresh.start (sampleCall attempt outcome)) := by
  refine ⟨rfl, ?_, quiet, rfl⟩
  intro answer answered row found
  obtain rfl : outcome = answer := Option.some.inj answered
  obtain rfl : sampleRow = row := Option.some.inj found
  exact same

theorem sample_step : Step "w" sampleFresh.start
    (sampleCall ⟨sampleDelivery, "x", none⟩ (.ok .null))
    (advance "w" sampleFresh.start (sampleCall ⟨sampleDelivery, "x", none⟩ (.ok .null))) :=
  ⟨fun _ _ => rfl, sample_driven ⟨sampleDelivery, "x", none⟩ (.ok .null) rfl (by decide)⟩

theorem simulation_sample : ∃ p,
    Run (Step "w") sampleFresh.start [sampleCall ⟨sampleDelivery, "x", none⟩ (.ok .null)] p ∧
    ∃ row, p.db.workflow "w" = some row ∧ row.status = statusOf p.workflow.status ∧
      row.attempts = p.workflow.attempts.toNat := by
  have run := Run.single sample_step
  exact ⟨_, run, (simulation sampleFresh run).1⟩

/-- An agent that escalates itself and succeeds leaves a record in one log only. -/
theorem escalation_on_one_side : ¬ ∀ (fresh : Fresh (Except String Value))
    (calls : List (Call (Except String Value))) (p : Pair (Except String Value)),
    Run (Step fresh.creation.id) fresh.start calls p →
    lifeOf fresh.creation.id p.db.auditLogs =
      coreLife fresh.start.workflow.id p.orchestrator := by
  intro law
  have run : Run (Step sampleFresh.creation.id) sampleFresh.start _ _ := .single sample_step
  have records : own sampleFresh.creation.id sampleDelivery = [.escalationCreated] := by decide
  have same := law sampleFresh _ _ run
  obtain ⟨_, _, endings, length, coreLog, log⟩ := related_run run (start_related sampleFresh)
  obtain ⟨ending, rfl⟩ := List.length_eq_one_iff.mp length
  obtain ⟨coreFirst, first⟩ := start_life sampleFresh
  rw [log, coreLog, coreFirst, first] at same
  have lengths := congrArg List.length same
  simp [woven, sampleCall, records] at lengths

/-- The delivery agent is given a project without an id, which is the key of its memory: the store
refuses the first commit of the agent. -/
def sampleRefused : Attempt where
  behaviour := .returns [.work .elsewhere quiet_elsewhere, .work .commit quiet_commit] .null
  escalationId := "x"
  refused := some 5

/-- Behind it one workflow is left running, and the other goes back into the queue. -/
theorem status_on_one_side : ¬ ∀ (fresh : Fresh (Except String Value))
    (calls : List (Call (Except String Value))) (p : Pair (Except String Value)),
    Run (Driven fresh.creation.id) fresh.start calls p →
    ∃ row, p.db.workflow fresh.creation.id = some row ∧
      row.status = statusOf p.workflow.status := by
  intro law
  have failed : sampleRefused.agentFails (.load sampleRow) = true := by decide
  have run : Run (Driven sampleFresh.creation.id) sampleFresh.start _ _ :=
    .single (sample_driven sampleRefused (.error "key") failed.symm (by decide))
  obtain ⟨row, found, same⟩ := law sampleFresh _ _ run
  have queued : (advance "w" sampleFresh.start (sampleCall sampleRefused (.error "key"))
      ).workflow.status = .pending := by decide
  have left : ((advance "w" sampleFresh.start (sampleCall sampleRefused (.error "key"))
      ).db.workflow "w").map Workflow.status = some .running := by decide
  rw [show (advance "w" _ _).db.workflow "w" = some row from found, Option.map_some, same,
    show (advance "w" _ _).workflow.status = _ from queued] at left
  cases left

/-- The two differ in a log, and in a status where the store refuses a commit. -/
theorem orchestrators_part :
    (¬ ∀ (fresh : Fresh (Except String Value)) (calls : List (Call (Except String Value)))
      (p : Pair (Except String Value)), Run (Step fresh.creation.id) fresh.start calls p →
      lifeOf fresh.creation.id p.db.auditLogs =
        coreLife fresh.start.workflow.id p.orchestrator) ∧
    ¬ ∀ (fresh : Fresh (Except String Value)) (calls : List (Call (Except String Value)))
      (p : Pair (Except String Value)), Run (Driven fresh.creation.id) fresh.start calls p →
      ∃ row, p.db.workflow fresh.creation.id = some row ∧
        row.status = statusOf p.workflow.status :=
  ⟨escalation_on_one_side, status_on_one_side⟩

end Sample

end BusinessOs.App.Parity
