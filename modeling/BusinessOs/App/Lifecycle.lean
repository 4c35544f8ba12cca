/- Source: app/services/departments.py (pause, kill), app/services/scheduler.py,
     app/api/routes_agents.py, app/agents/orchestrator.py, app/agents/department.py
   digest: Pauses, kills, ticks and runs of departments, interleaved between their commits. -/

import BusinessOs.App.DepartmentAgent
import BusinessOs.App.Scheduler

set_option autoImplicit false
set_option relaxedAutoImplicit false

namespace BusinessOs.App.Lifecycle

open BusinessOs.Lib BusinessOs.Lib.UnitOfWork BusinessOs.Lib.Json.Tree
open BusinessOs.App.Models BusinessOs.App.Workflows BusinessOs.App.Company
open BusinessOs.App.Scheduler (pendingWorkflows)
open BusinessOs.App.Sessions BusinessOs.App.Orchestrator BusinessOs.App.DepartmentAgent

def pauseAgents (departmentId : String) (rows : List AgentInstance) : List AgentInstance :=
  rows.map fun agent =>
    if agent.departmentId = some departmentId then { agent with status := .paused } else agent

/-- The first commit of `pause`; the second one is its record. -/
def pause (departmentId : String) (db : CompanyDatabase) : CompanyDatabase :=
  { db with
    departments := Table.update Department.id db.departments departmentId fun department =>
      { department with status := .paused }
    agentInstances := pauseAgents departmentId db.agentInstances }

def pausedRecord (department : Department) : AuditLog where
  workflowId := none
  action := .departmentPaused
  actor := "human"
  message := "Department paused: " ++ department.name
  metadata := .object [("department_id", .string department.id)]

/-- The first commit of `kill`. -/
def kill (departmentId : String) (db : CompanyDatabase) : CompanyDatabase :=
  { db with
    departments := Table.update Department.id db.departments departmentId fun department =>
      { department with status := .killed }
    departmentSchedules := db.departmentSchedules.map fun schedule =>
      if schedule.departmentId = departmentId then { schedule with enabled := false } else schedule
    agentInstances := pauseAgents departmentId db.agentInstances }

def killedRecord (department : Department) : AuditLog where
  workflowId := none
  action := .departmentKilled
  actor := "human"
  message := "Department killed: " ++ department.name
  metadata := .object [("department_id", .string department.id)]

/-- The query of `process_due_department_schedules`. -/
def dueSchedules (now : ℤ) (db : CompanyDatabase) : List DepartmentSchedule :=
  ((db.departmentSchedules.filter fun schedule =>
      schedule.enabled && schedule.nextRunAt.any (fun next => decide (next ≤ now)) &&
        (db.department schedule.departmentId).any fun department =>
          decide (department.status = .active)).insertionSort
    fun a b => a.nextRunAt.getD 0 ≤ b.nextRunAt.getD 0).take 10

/-- `_next_run`, in microseconds. -/
def nextRun (now : ℤ) (cadence : String) : ℤ :=
  let hour := 3600 * 1000000
  if cadence = "hourly" then now + hour
  else if cadence = "weekly" then now + 7 * 24 * hour
  else if cadence = "business_daily" then now + 24 * hour
  else now + 24 * hour

/-- `payload.setdefault(key, value)`. -/
def setDefault (members : List (String × Value)) (key : String) (value : Value) :
    List (String × Value) :=
  if members.any fun m => m.1 == key then members else members ++ [(key, value)]

/-- The payload of a schedule's workflow. -/
def scheduledPayload (schedule : DepartmentSchedule) (department : DepartmentCopy) : Value :=
  let template := match schedule.payloadTemplate with
    | .object members => members
    | _ => []
  .object (setDefault (setDefault template "department_id" (.string department.id))
    "department_type" (.string department.departmentType))

/-- The workflow that a tick creates for a schedule. -/
def scheduledCreation (schedule : DepartmentSchedule) (department : DepartmentCopy) (id : String)
    (createdAt : ℤ) : Creation where
  id
  kind := schedule.workflowKind
  title := department.name ++ ": " ++ schedule.name
  payload := scheduledPayload schedule department
  source := "schedule:" ++ schedule.id
  createdAt

/-- The workflow that `POST /departments/{id}/run` creates. -/
def manualCreation (department : DepartmentCopy) (id : String) (createdAt : ℤ) : Creation where
  id
  kind := "department_operation"
  title := "Run " ++ department.name
  payload := .object [("department_id", .string department.id),
    ("department_type", .string department.departmentType), ("mode", .string "manual")]
  source := "manual"
  createdAt

def createdRecord (creation : Creation) : AuditLog where
  workflowId := some creation.id
  action := .workflowCreated
  actor := "system"
  message := "Workflow created: " ++ creation.title
  metadata := .object [("kind", .string creation.kind), ("source", .string creation.source)]

/-- The department that a workflow operates. -/
def departmentOf (kind : String) (payload : Value) : Option String :=
  if kind = "department_operation" then
    match entry payload "department_id" with
    | some (.string id) => some id
    | _ => none
  else none

/-- A commit apart from those of `run_workflow`. -/
inductive Write
  | audit (entry : AuditLog)
  | schedule (id : String) (lastRunAt nextRunAt : ℤ)
  deriving DecidableEq

def Write.apply (db : CompanyDatabase) : Write → CompanyDatabase
  | .audit entry => { db with auditLogs := db.auditLogs ++ [entry] }
  | .schedule id lastRunAt nextRunAt =>
    { db with
      departmentSchedules := Table.update DepartmentSchedule.id db.departmentSchedules id
        fun schedule =>
          { schedule with lastRunAt := some lastRunAt, nextRunAt := some nextRunAt } }

/-- What a session has still to do. -/
inductive Task
  | write (write : Write)
  | iteration (now : ℤ) (schedule : DepartmentSchedule)
  | runWorkflow (workflow : WorkflowCopy) (payload : Value)
  deriving DecidableEq

/-- A call of `run_workflow`, with the statements that it has still to make: up to `agent.run`,
or from there to the end. -/
structure Call where
  session : Session
  payload : Value
  called : Bool
  program : List Statement
  deriving DecidableEq

/-- A session with the copies of rows that it holds; without a task it is closed. It holds a copy
for good, where SQLAlchemy's identity map drops one that nothing refers to and reads it anew. -/
structure Process where
  departments : List DepartmentCopy
  agents : List AgentCopy
  call : Option Call
  tasks : List Task
  deriving DecidableEq

def Process.idle : Process := ⟨[], [], none, []⟩

def Process.department (process : Process) (id : String) : Option DepartmentCopy :=
  process.departments.find? fun copy => copy.id == id

/-- `session.get(Department, id)`. -/
def Process.get (process : Process) (db : CompanyDatabase) (id : String) : Option DepartmentCopy :=
  (process.department id).or ((db.department id).map DepartmentCopy.load)

/-- The copies of a session with this one. -/
def hold (departments : List DepartmentCopy) (copy : DepartmentCopy) : List DepartmentCopy :=
  copy :: departments.filter fun other => other.id != copy.id

section Call

variable (call : Call) (db : CompanyDatabase)

def Call.department : Option String := departmentOf call.session.workflow.kind call.payload

/-- The statements up to the next commit, and that commit. -/
def Call.segment : List Statement :=
  call.program.takeWhile (fun statement => statement != .commit) ++ [.commit]

/-- The next commit. -/
def Call.advance : Call :=
  { call with
    session := execute { call.session with db } call.segment
    program := (call.program.dropWhile fun statement => statement != .commit).drop 1 }

/-- A department as its copy stands in memory. -/
def row (copy : DepartmentCopy) : Department where
  id := copy.id
  name := copy.name
  departmentType := copy.departmentType
  status := copy.status.current
  healthScore := copy.healthScore.current
  revenueSignals := copy.revenueSignals.current
  lastOutput := copy.lastOutput.current

/-- The rows as the session sees them. -/
def Call.view : CompanyDatabase :=
  match call.session.department with
  | none => db
  | some copy => { db with departments := [row copy] }

/-- The call of the agent; `other` is what an agent of another kind does. -/
def Call.start (str : Value → String) (plan : Plan) (other : Behaviour) : Call :=
  let workflow := call.session.workflow
  let behaviour :=
    if workflow.kind = "department_operation" then
      DepartmentAgent.run str workflow.id call.payload plan (call.view db)
    else other
  let agent := behaviour.statements workflow.id
  { call with
    called := true
    program := agent ++ closing (copyAfter workflow agent) plan.escalationId behaviour.outcome }

end Call

/-- `run_workflow` begins. -/
def Process.enter (process : Process) (db : CompanyDatabase) (workflow : WorkflowCopy)
    (payload : Value) : Call where
  session :=
    { Session.start db workflow with
      department := (departmentOf workflow.kind payload).bind process.department
      agents := process.agents }
  payload
  called := false
  program := opening workflow

/-- After a commit of a call; behind the last one the session goes on to its next task. -/
def Process.resume (process : Process) (call : Call) : Process :=
  if call.called ∧ call.program = [] then
    { process with
      departments := (call.session.department.map (hold process.departments)).getD
        process.departments
      agents := call.session.agents
      call := none }
  else { process with call := some call }

/-- The agents of the other kinds use neither departments nor their agents, and request actions for
their own workflow. -/
def foreign (workflowId : String) : Statement → Bool
  | .getDepartment _ | .getAgents _ | .department _ | .agent _ _ => false
  | .add (.action action) => action.workflowId == some workflowId
  | _ => true

inductive Event (P : Type)
  /-- `POST /departments/{id}/pause`. -/
  | pause (p : P) (departmentId : String)
  /-- `POST /departments/{id}/kill`. -/
  | kill (p : P) (departmentId : String)
  /-- `process_due_department_schedules`, up to its query. -/
  | tick (p : P) (now : ℤ)
  /-- `process_pending_workflows`, up to its query. -/
  | pass (p : P)
  /-- `POST /departments/{id}/run`, up to the commit of the workflow. -/
  | request (p : P) (departmentId id : String) (createdAt : ℤ)
  /-- `POST /workflows`, up to the commit of the workflow. -/
  | create (p : P) (creation : Creation) (runImmediately : Bool)
  /-- A turn of the tick's loop, up to the commit of the workflow. -/
  | iterate (p : P) (id : String) (createdAt : ℤ)
  /-- The next commit of a session. -/
  | commit (p : P)
  /-- The call of an agent, up to the next commit. -/
  | call (p : P) (plan : Plan) (other : Behaviour)

/-- No workflow has the id, and no external action names it. -/
def Unused (db : CompanyDatabase) (id : String) : Prop :=
  id ∉ db.workflows.map Workflow.id ∧
    some id ∉ db.externalActions.map ExternalAction.workflowId

instance (db : CompanyDatabase) (id : String) : Decidable (Unused db id) :=
  inferInstanceAs (Decidable (_ ∧ _))

def insertWorkflow (db : CompanyDatabase) (creation : Creation) : CompanyDatabase :=
  { db with workflows := db.workflows ++ [creation.row] }

abbrev World (P : Type) := Interleaving.World P CompanyDatabase Process

section Step

variable {P : Type} [DecidableEq P] (str : Value → String)

/-- `none` where the event does not fit the session's state. -/
def step (s : World P) : Event P → Option (World P)
  | .pause p departmentId =>
    if (s.phase p).call = none ∧ (s.phase p).tasks = [] then
      (s.db.department departmentId).map fun department =>
        s.move p (pause departmentId s.db)
          { Process.idle with tasks := [.write (.audit (pausedRecord department))] }
    else none
  | .kill p departmentId =>
    if (s.phase p).call = none ∧ (s.phase p).tasks = [] then
      (s.db.department departmentId).map fun department =>
        s.move p (kill departmentId s.db)
          { Process.idle with tasks := [.write (.audit (killedRecord department))] }
    else none
  | .tick p now =>
    if (s.phase p).call = none ∧ (s.phase p).tasks = [] then
      some (s.move p s.db
        { Process.idle with tasks := (dueSchedules now s.db).map (Task.iteration now) })
    else none
  | .pass p =>
    if (s.phase p).call = none ∧ (s.phase p).tasks = [] then
      some (s.move p s.db
        { Process.idle with
          tasks := (pendingWorkflows s.db.workflows).map fun row =>
            .runWorkflow (.load row) row.payload })
    else none
  | .request p departmentId id createdAt =>
    if (s.phase p).call = none ∧ (s.phase p).tasks = [] ∧ Unused s.db id then
      (s.db.department departmentId).map fun department =>
        let copy := DepartmentCopy.load department
        let creation := manualCreation copy id createdAt
        s.move p (insertWorkflow s.db creation)
          { Process.idle with
            departments := [copy]
            tasks := [.write (.audit (createdRecord creation)),
              .runWorkflow (.load creation.row) creation.payload] }
    else none
  | .create p creation runImmediately =>
    if (s.phase p).call = none ∧ (s.phase p).tasks = [] ∧ Unused s.db creation.id then
      some (s.move p (insertWorkflow s.db creation)
        { Process.idle with
          tasks := .write (.audit (createdRecord creation)) ::
            if runImmediately then [.runWorkflow (.load creation.row) creation.payload] else [] })
    else none
  | .iterate p id createdAt =>
    let process := s.phase p
    match process.call, process.tasks with
    | none, .iteration now schedule :: tasks =>
      match process.get s.db schedule.departmentId with
      | none => some (s.move p s.db { process with tasks })
      | some copy =>
        if Unused s.db id then
          let creation := scheduledCreation schedule copy id createdAt
          some (s.move p (insertWorkflow s.db creation)
            { process with
              departments := hold process.departments copy
              tasks := [.write (.audit (createdRecord creation)),
                .write (.schedule schedule.id now (nextRun now schedule.cadence)),
                .runWorkflow (.load creation.row) creation.payload] ++ tasks })
        else none
    | _, _ => none
  | .commit p =>
    let process := s.phase p
    match process.call, process.tasks with
    | some call, _ =>
      if call.program = [] then none
      else
        let call := call.advance s.db
        some (s.move p call.session.db (process.resume call))
    | none, .write write :: tasks =>
      some (s.move p (write.apply s.db) { process with tasks })
    | none, .runWorkflow workflow payload :: tasks =>
      -- For a kind without an agent `run_workflow` raises, and the session goes on.
      if workflow.supported then
        let call := (process.enter s.db workflow payload).advance s.db
        some (s.move p call.session.db { process with call := some call, tasks })
      else some (s.move p s.db { process with tasks })
    | _, _ => none
  | .call p plan other =>
    let process := s.phase p
    match process.call with
    | some call =>
      let id := call.session.workflow.id
      if call.called = false ∧ call.program = [] ∧ (other.statements id).all (foreign id) then
        let call := (call.start s.db str plan other).advance s.db
        some (s.move p call.session.db (process.resume call))
      else none
    | none => none

end Step

end BusinessOs.App.Lifecycle
