/- Source: app/models.py (Department, AgentInstance, DepartmentSchedule),
   rust/src/bridge.rs (department_metrics)
   digest: The rows of departments and their agents, a session's copies of them, and the metrics. -/

import BusinessOs.App.Models
import BusinessOs.Lib.OrderedMap
import BusinessOs.Lib.UnitOfWork
import Mathlib.Algebra.Field.Rat
import Mathlib.Data.String.Basic

set_option autoImplicit false
set_option relaxedAutoImplicit false

namespace BusinessOs.App.Company

open BusinessOs.Lib BusinessOs.Lib.UnitOfWork BusinessOs.Lib.Json.Tree BusinessOs.App.Models

inductive DepartmentStatus
  | active | paused | killed
  deriving DecidableEq, Repr

def DepartmentStatus.value : DepartmentStatus → String
  | .active => "active"
  | .paused => "paused"
  | .killed => "killed"

inductive AgentRuntimeStatus
  | idle | running | waitingForApproval | paused | error
  deriving DecidableEq, Repr

/-- The texts that describe a department are left out; the score is read as an exact number. -/
structure Department where
  id : String
  name : String
  departmentType : String
  status : DepartmentStatus
  healthScore : ℚ
  revenueSignals : Value
  lastOutput : Value
  deriving DecidableEq

structure AgentInstance where
  id : String
  departmentId : Option String
  status : AgentRuntimeStatus
  currentTask : Option String
  lastOutput : Value
  deriving DecidableEq

structure DepartmentSchedule where
  id : String
  departmentId : String
  name : String
  cadence : String
  workflowKind : String
  payloadTemplate : Value
  enabled : Bool
  nextRunAt : Option ℤ
  lastRunAt : Option ℤ
  deriving DecidableEq

/-- The committed rows, with those of the departments. -/
structure CompanyDatabase extends Database where
  departments : List Department
  agentInstances : List AgentInstance
  departmentSchedules : List DepartmentSchedule
  deriving DecidableEq

def CompanyDatabase.department (db : CompanyDatabase) (id : String) : Option Department :=
  Table.get Department.id db.departments id

/-- The agents of a department, as the query returns them. -/
def CompanyDatabase.agentsOf (db : CompanyDatabase) (departmentId : String) :
    List AgentInstance :=
  db.agentInstances.filter fun agent => agent.departmentId == some departmentId

/-! A session's copies. -/

structure DepartmentCopy where
  id : String
  name : String
  departmentType : String
  status : Tracked DepartmentStatus
  healthScore : Tracked ℚ
  revenueSignals : Tracked Value
  lastOutput : Tracked Value
  deriving DecidableEq

def DepartmentCopy.load (row : Department) : DepartmentCopy where
  id := row.id
  name := row.name
  departmentType := row.departmentType
  status := .load row.status
  healthScore := .load row.healthScore
  revenueSignals := .load row.revenueSignals
  lastOutput := .load row.lastOutput

def DepartmentCopy.flush (department : DepartmentCopy) (row : Department) : Department :=
  { row with
    status := department.status.flush row.status
    healthScore := department.healthScore.flush row.healthScore
    revenueSignals := department.revenueSignals.flush row.revenueSignals
    lastOutput := department.lastOutput.flush row.lastOutput }

theorem DepartmentCopy.flush_id (department : DepartmentCopy) (row : Department) :
    (department.flush row).id = row.id := rfl

def DepartmentCopy.committed (department : DepartmentCopy) : DepartmentCopy :=
  { department with
    status := department.status.committed
    healthScore := department.healthScore.committed
    revenueSignals := department.revenueSignals.committed
    lastOutput := department.lastOutput.committed }

structure AgentCopy where
  id : String
  status : Tracked AgentRuntimeStatus
  currentTask : Tracked (Option String)
  lastOutput : Tracked Value
  deriving DecidableEq

def AgentCopy.load (row : AgentInstance) : AgentCopy where
  id := row.id
  status := .load row.status
  currentTask := .load row.currentTask
  lastOutput := .load row.lastOutput

def AgentCopy.flush (agent : AgentCopy) (row : AgentInstance) : AgentInstance :=
  { row with
    status := agent.status.flush row.status
    currentTask := agent.currentTask.flush row.currentTask
    lastOutput := agent.lastOutput.flush row.lastOutput }

def AgentCopy.committed (agent : AgentCopy) : AgentCopy :=
  { agent with
    status := agent.status.committed
    currentTask := agent.currentTask.committed
    lastOutput := agent.lastOutput.committed }

/-- Every copy writes its own row. -/
def flushAgents (agents : List AgentCopy) (rows : List AgentInstance) : List AgentInstance :=
  agents.foldl (fun rows agent => Table.update AgentInstance.id rows agent.id agent.flush) rows

/-! `department_metrics`; the additions wrap, as in a release build. -/

/-- `Value::as_u64`, with `unwrap_or(0)`. -/
def unsigned (members : List (String × Value)) (key : String) : UInt64 :=
  match (members.find? fun m => m.1 == key).map Prod.snd with
  | some (.number (.posInt n)) => n
  | _ => 0

/-- The length of an array member, `0` where there is none. -/
def countItems (output : Value) (key : String) : UInt64 :=
  match output with
  | .object members =>
    match (members.find? fun m => m.1 == key).map Prod.snd with
    | some (.array items) => UInt64.ofNat items.length
    | _ => 0
  | _ => 0

def departmentMetrics (departmentType status : String) (revenueSignals output : Value)
    (approvalCount : ℕ) : ℚ × Value :=
  let signals := match revenueSignals with
    | .object members => OrderedMap.ofList members
    | _ => []
  let signals :=
    if departmentType = "sales" then
      let leadsCount := countItems output "leads"
      let leadCount := unsigned signals "lead_count" + leadsCount
      let pipelineValue := unsigned signals "pipeline_value" + leadsCount * 5000
      OrderedMap.insert "pipeline_value" (.number (.posInt pipelineValue))
        (OrderedMap.insert "lead_count" (.number (.posInt leadCount)) signals)
    else if departmentType = "content" then
      let contentOutputs := unsigned signals "content_outputs" + countItems output "drafts"
      OrderedMap.insert "content_outputs" (.number (.posInt contentOutputs)) signals
    else signals
  let healthScore : ℚ := if status = "active" then 19 / 20 else 2 / 5
  let healthScore := if approvalCount > 10 then healthScore - 1 / 10 else healthScore
  (max 0 (min healthScore 1), .object signals)

example : (departmentMetrics "sales" "active" (.object [("lead_count", .number (.posInt 3))])
    (.object [("leads", .array [.null, .null])]) 2).2 =
    .object [("lead_count", .number (.posInt 5)), ("pipeline_value", .number (.posInt 10000))] := by
  decide

end BusinessOs.App.Company
