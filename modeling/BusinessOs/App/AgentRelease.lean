/- Source: app/agents/department.py (run), app/agents/orchestrator.py (run_workflow)
   digest: Where an operating loop that fails leaves the agents of its department. -/

import BusinessOs.App.AgentRows
import BusinessOs.App.CrashPoints
import BusinessOs.App.LifecycleLaws

set_option autoImplicit false
set_option relaxedAutoImplicit false

namespace BusinessOs.App.AgentRelease

open BusinessOs.Lib BusinessOs.Lib.Json.Tree
open BusinessOs.App.Models BusinessOs.App.Company BusinessOs.App.Sessions
open BusinessOs.App.Orchestrator BusinessOs.App.DepartmentAgent BusinessOs.App.AgentRows
open BusinessOs.App.DepartmentEffects BusinessOs.App.LifecycleLaws

/-- An agent that does not run, and keeps no task that the run has set. -/
def Free (run : List Statement) (agent : AgentInstance) : Prop :=
  agent.status ≠ .running ∧
    ∀ task ∈ agent.currentTask, .agent agent.id (.currentTask (some task)) ∉ run

instance (run : List Statement) (agent : AgentInstance) : Decidable (Free run agent) :=
  inferInstanceAs (Decidable (_ ∧ _))

/-- The agents of a department behind a run. -/
def Released (departmentId : String) (run : List Statement) (rows : List AgentInstance) : Prop :=
  ∀ agent ∈ rows, agent.departmentId = some departmentId → Free run agent

instance (departmentId : String) (run : List Statement) (rows : List AgentInstance) :
    Decidable (Released departmentId run rows) :=
  inferInstanceAs (Decidable (∀ agent ∈ rows, _ → _))

/-- What stands when it is a commit of the agent that raises: its transaction is gone, and the
orchestrator's own commit raises as well. -/
def cutOff (row : Workflow) (behaviour : Behaviour) (db : CompanyDatabase) : CompanyDatabase :=
  (execute (Session.start db (.load row))
    (opening (.load row) ++ behaviour.statements row.id)).db

/-! The assignments to one agent. -/

def starts (task : String) : List AgentChange := [.status .running, .currentTask (some task)]

def releases (status : AgentRuntimeStatus) (output : Value) : List AgentChange :=
  [.status status, .currentTask none, .lastOutput output]

/-- The same assignments to every agent, one agent after the other. -/
def assign (agents : List AgentInstance) (changes : List AgentChange) : List Statement :=
  agents.flatMap fun agent => changes.map (Statement.agent agent.id)

/-- An operating loop: `busy` and `saves` stand between the start of the agents and their release,
and assign nothing to an agent. -/
structure Loop where
  departmentId : String
  agents : List AgentInstance
  task : String
  busy : List Statement
  saves : List Statement
  status : AgentRuntimeStatus
  output : Value
  distinct : (agents.map AgentInstance.id).Nodup
  free : status ≠ .running
  idle : ∀ id, changesTo id busy = []
  saved : ∀ id, changesTo id saves = []
  between : .commit ∉ saves

def Loop.reads (l : Loop) : List Statement :=
  [.getDepartment l.departmentId, .getAgents l.departmentId]

/-- Up to the first commit. -/
def Loop.start (l : Loop) : List Statement := l.reads ++ assign l.agents (starts l.task)

/-- What the commit of the release writes. -/
def Loop.release (l : Loop) : List Statement :=
  l.saves ++ assign l.agents (releases l.status l.output)

def Loop.statements (l : Loop) : List Statement :=
  l.start ++ [.commit] ++ l.busy ++ l.release ++ [.commit, .elsewhere, .commit]

section Changes

variable {id task : String} {agents front back : List AgentInstance} {row : AgentInstance}
variable {changes : List AgentChange} {program run : List Statement}
variable {busy saves : List Statement} {status : AgentRuntimeStatus} {output : Value}

theorem take_silent (silent : changesTo id program = []) (k : ℕ) :
    changesTo id (program.take k) = [] :=
  List.prefix_nil.mp (silent ▸ changesTo_isPrefix (List.take_prefix k program))

theorem changesTo_own (id : String) (changes : List AgentChange) :
    changesTo id (changes.map (Statement.agent id)) = changes := by
  rw [changesTo, List.filterMap_map]
  exact (List.filterMap_congr fun change _ => if_pos rfl).trans List.filterMap_some

theorem changesTo_assign_of_ne (others : ∀ agent ∈ agents, agent.id ≠ id) :
    changesTo id (assign agents changes) = [] := by
  rw [List.eq_nil_iff_forall_not_mem]
  intro change member
  obtain ⟨agent, listed, inside⟩ := List.mem_flatMap.mp (mem_changesTo.mp member)
  obtain ⟨other, _, same⟩ := List.mem_map.mp inside
  exact others agent listed (Statement.agent.inj same).1

theorem length_assign : (assign agents changes).length = agents.length * changes.length := by
  simp [assign]

/-- What reaches one agent of a part of the assignments. -/
theorem changesTo_take_assign (distinct : ((front ++ row :: back).map AgentInstance.id).Nodup)
    (changes : List AgentChange) (k : ℕ) :
    changesTo row.id ((assign (front ++ row :: back) changes).take k) =
      changes.take (k - front.length * changes.length) := by
  have apart : ∀ agent ∈ front ++ back, agent.id ≠ row.id := by
    have moved := (List.perm_middle.map AgentInstance.id).nodup_iff.mp distinct
    rw [List.map_cons, List.nodup_cons] at moved
    exact fun agent member same => moved.1 (same ▸ List.mem_map_of_mem member)
  have split : assign (front ++ row :: back) changes =
      assign front changes ++ changes.map (Statement.agent row.id) ++ assign back changes := by
    simp [assign]
  have before : changesTo row.id (assign front changes) = [] :=
    changesTo_assign_of_ne fun agent member => apart agent (List.mem_append_left _ member)
  have behind : changesTo row.id (assign back changes) = [] :=
    changesTo_assign_of_ne fun agent member => apart agent (List.mem_append_right _ member)
  rw [split, List.take_append, List.take_append, changesTo_append, changesTo_append,
    take_silent before, take_silent behind, List.nil_append, List.append_nil, length_assign,
    ← List.map_take, changesTo_own]

/-- The assignments that a part of a loop makes to one agent. -/
theorem changesTo_loop (l : Loop) (split : l.agents = front ++ row :: back) (k : ℕ) :
    changesTo row.id (l.statements.take k) =
      (starts l.task).take (k - 2 - front.length * 2) ++
        (releases l.status l.output).take (k - (3 + l.agents.length * 2 + l.busy.length +
          l.saves.length) - front.length * 3) := by
  have reads : changesTo row.id l.reads = [] := rfl
  have committed : changesTo row.id [Statement.commit] = [] := rfl
  have last : changesTo row.id [Statement.commit, .elsewhere, .commit] = [] := rfl
  have distinct : ((front ++ row :: back).map AgentInstance.id).Nodup := split ▸ l.distinct
  have assigned : ∀ changes n, changesTo row.id ((assign l.agents changes).take n) =
      changes.take (n - front.length * changes.length) := by
    intro changes n
    rw [split]
    exact changesTo_take_assign distinct changes n
  simp only [Loop.statements, Loop.start, Loop.release, List.take_append, changesTo_append,
    take_silent reads, take_silent committed, take_silent (l.idle _), take_silent (l.saved _),
    take_silent last, assigned, List.nil_append, List.append_nil, List.length_append, length_assign]
  have two : (starts l.task).length = 2 := rfl
  have three : (releases l.status l.output).length = 3 := rfl
  have read : l.reads.length = 2 := rfl
  rw [two, three, read]
  congr 2
  simp only [List.length_cons, List.length_nil]
  omega

/-- One agent is free when it was never set running, or when its status and its task are both
released. -/
theorem free_iff {x y : ℕ} (free : status ≠ .running)
    (reached : changesTo row.id run =
      (starts task).take x ++ (releases status output).take y) (order : 0 < y → 2 ≤ x) :
    Free run (rowAfter run row) ↔ (x = 0 ∧ row.status ≠ .running) ∨ 2 ≤ y := by
  have set : ∀ task, Statement.agent row.id (.currentTask (some task)) ∈ run ↔
      AgentChange.currentTask (some task) ∈ changesTo row.id run := fun _ => mem_changesTo.symm
  rw [Free, rowAfter_id, rowAfter]
  simp only [set]
  rw [reached]
  obtain rfl | rfl | ⟨x, rfl⟩ : x = 0 ∨ x = 1 ∨ ∃ z, x = z + 2 := by
    rcases x with _ | _ | x
    · exact .inl rfl
    · exact .inr (.inl rfl)
    · exact .inr (.inr ⟨x, rfl⟩)
  · obtain rfl : y = 0 := by omega
    simp [starts, releases]
  · obtain rfl : y = 0 := by omega
    simp [starts, releases, written]
  · rcases y with _ | _ | _ | y
    · simp [starts, releases, written]
    · simp [starts, releases, written]
    · simp [starts, releases, written, free]
    · simp [starts, releases, written, free]

/-- A part of a loop leaves all agents free when it stops in front of the first of them, or
behind the task of the last one. -/
theorem free_take (l : Loop) (k : ℕ) :
    (∀ row ∈ l.agents, Free (l.statements.take k) (rowAfter (l.statements.take k) row)) ↔
      l.agents = [] ∨ (k ≤ 2 ∧ ∀ row ∈ l.agents, row.status ≠ .running) ∨
        2 + l.agents.length * 5 + l.busy.length + l.saves.length ≤ k := by
  have each : ∀ front row back, l.agents = front ++ row :: back →
      (Free (l.statements.take k) (rowAfter (l.statements.take k) row) ↔
        (k - 2 - front.length * 2 = 0 ∧ row.status ≠ .running) ∨
          2 ≤ k - (3 + l.agents.length * 2 + l.busy.length + l.saves.length) -
            front.length * 3) := by
    intro front row back split
    have length : l.agents.length = front.length + (back.length + 1) := by
      rw [split, List.length_append, List.length_cons]
    exact free_iff l.free (changesTo_loop l split k) (by omega)
  constructor
  · intro all
    rcases List.eq_nil_or_concat l.agents with none_ | ⟨front, last, some_⟩
    · exact .inl none_
    right
    rw [List.concat_eq_append] at some_
    have length : l.agents.length = front.length + 1 := by rw [some_, List.length_append]; rfl
    -- The first agent decides where the loop stopped, the last one how far it came.
    obtain ⟨first, rest, cons⟩ : ∃ first rest, l.agents = first :: rest := by
      cases front with
      | nil => exact ⟨last, [], some_⟩
      | cons first rest => exact ⟨first, rest ++ [last], some_⟩
    have firstFree := (each [] first rest cons).mp (all first (cons ▸ List.mem_cons_self))
    have lastFree := (each front last [] some_).mp (all last (some_ ▸ by simp))
    rw [List.length_nil] at firstFree
    rcases firstFree with ⟨early, _⟩ | late
    · refine .inl ⟨by omega, ?_⟩
      intro row member
      obtain ⟨front, back, split⟩ := List.append_of_mem member
      rcases (each front row back split).mp (all row member) with ⟨_, stopped⟩ | late
      · exact stopped
      · omega
    · rcases lastFree with ⟨early, _⟩ | late
      · omega
      · exact .inr (by omega)
  · intro reached row member
    obtain ⟨front, back, split⟩ := List.append_of_mem member
    have length : l.agents.length = front.length + 1 + back.length := by
      rw [split, List.length_append, List.length_cons]
      omega
    rw [each front row back split]
    rcases reached with none_ | ⟨early, stopped⟩ | late
    · rw [none_] at member
      cases member
    · exact .inl ⟨by omega, stopped row member⟩
    · exact .inr (by omega)

end Changes

/-! How much of a part of a loop is committed. -/

section Settled

variable (l : Loop) {k : ℕ}

theorem length_start : l.start.length = 2 + l.agents.length * 2 := by
  rw [Loop.start, List.length_append, length_assign]
  rfl

theorem length_release : l.release.length = l.saves.length + l.agents.length * 3 := by
  rw [Loop.release, List.length_append, length_assign]
  rfl

theorem length_statements : l.statements.length =
    6 + l.agents.length * 5 + l.busy.length + l.saves.length := by
  simp only [Loop.statements, List.length_append, length_start, length_release, List.length_cons,
    List.length_nil]
  omega

theorem commit_not_mem (agents : List AgentInstance) (changes : List AgentChange) :
    .commit ∉ assign agents changes := by simp [assign]

theorem settled_early (stops : k ≤ 2 + l.agents.length * 2) :
    (settled (l.statements.take k)).length = 0 := by
  have split : l.statements = [] ++ l.start ++ ([.commit] ++ l.busy ++ l.release ++
      [.commit, .elsewhere, .commit]) := by simp [Loop.statements]
  have between : .commit ∉ l.start := by
    rw [Loop.start, List.mem_append, not_or]
    exact ⟨by simp [Loop.reads], commit_not_mem _ _⟩
  have most := settled_take_silent (k := k) split between (by simpa [length_start] using stops)
  exact Nat.le_zero.mp most

theorem settled_started (goes : 2 + l.agents.length * 2 < k) :
    3 + l.agents.length * 2 ≤ (settled (l.statements.take k)).length := by
  have split : l.statements = l.start ++ [.commit] ++ (l.busy ++ l.release ++
      [.commit, .elsewhere, .commit]) := by simp [Loop.statements]
  have least := settled_take_commit (k := k) split (by rwa [length_start])
  rw [length_start] at least
  omega

theorem settled_working (stops : k ≤ 3 + l.agents.length * 5 + l.busy.length + l.saves.length) :
    (settled (l.statements.take k)).length ≤ 3 + l.agents.length * 2 + l.busy.length := by
  have length : (l.start ++ [Statement.commit] ++ l.busy).length =
      3 + l.agents.length * 2 + l.busy.length := by
    simp only [List.length_append, length_start, List.length_cons, List.length_nil]
    omega
  have between : .commit ∉ l.release := by
    rw [Loop.release, List.mem_append, not_or]
    exact ⟨l.between, commit_not_mem _ _⟩
  have split : l.statements = (l.start ++ [.commit] ++ l.busy) ++ l.release ++
      [.commit, .elsewhere, .commit] := rfl
  have most := settled_take_silent (k := k) split between
  rw [length, length_release] at most
  exact most (by omega)

theorem settled_done (goes : 3 + l.agents.length * 5 + l.busy.length + l.saves.length < k) :
    4 + l.agents.length * 5 + l.busy.length + l.saves.length ≤
      (settled (l.statements.take k)).length := by
  have split : l.statements = (l.start ++ [.commit] ++ l.busy ++ l.release) ++ [.commit] ++
      [.elsewhere, .commit] := by simp [Loop.statements]
  have length : (l.start ++ [Statement.commit] ++ l.busy ++ l.release).length =
      3 + l.agents.length * 5 + l.busy.length + l.saves.length := by
    simp only [List.length_append, length_start, length_release, List.length_cons,
      List.length_nil]
    omega
  have least := settled_take_commit (k := k) split (by omega)
  omega

/-- What is committed of a part of a loop leaves all agents free when that part stops in front of
the first commit, or behind the one that follows the release. -/
theorem free_settled (k : ℕ) :
    (∀ row ∈ l.agents, Free (settled (l.statements.take k))
        (rowAfter (settled (l.statements.take k)) row)) ↔
      l.agents = [] ∨ (k ≤ 2 + l.agents.length * 2 ∧ ∀ row ∈ l.agents, row.status ≠ .running) ∨
        4 + l.agents.length * 5 + l.busy.length + l.saves.length ≤ k := by
  by_cases none_ : l.agents = []
  · simp [none_]
  have some_ : 0 < l.agents.length := List.length_pos_iff.mpr none_
  rw [settled_take l.statements k, free_take]
  constructor
  · rintro (nothing | ⟨short, stopped⟩ | long)
    · exact .inl nothing
    · refine .inr (.inl ⟨?_, stopped⟩)
      by_contra goes
      have least := settled_started l (k := k) (by omega)
      omega
    · refine .inr (.inr ?_)
      by_contra stops
      have most := settled_working l (k := k) (by omega)
      omega
  · rintro (nothing | ⟨short, stopped⟩ | long)
    · exact .inl nothing
    · have none_ := settled_early l short
      exact .inr (.inl ⟨by omega, stopped⟩)
    · have least := settled_done l (k := k) (by omega)
      exact .inr (.inr (by omega))

end Settled

/-! The rows behind a part of a loop. -/

section Rows

theorem silent_of_owned (workflowId : String) {program : List Statement}
    (all : program.all (owned workflowId []) = true) (id : String) : changesTo id program = [] := by
  rw [List.eq_nil_iff_forall_not_mem]
  intro change member
  have listed : decide (id ∈ ([] : List String)) = true :=
    List.all_eq_true.mp all _ (mem_changesTo.mp member)
  cases listed

variable {l : Loop} {k : ℕ} {db : CompanyDatabase} {row : Workflow} {rest run : List Statement}
variable {departmentId : String} {rows : List AgentInstance}

/-- A loop assigns to its own agents only. -/
theorem loop_listed {id : String} {change : AgentChange}
    (member : .agent id change ∈ l.statements) : id ∈ l.agents.map AgentInstance.id := by
  by_contra unlisted
  have others : ∀ agent ∈ l.agents, agent.id ≠ id :=
    fun agent inside same => unlisted (same ▸ List.mem_map_of_mem inside)
  have reads : changesTo id l.reads = [] := rfl
  have committed : changesTo id [Statement.commit] = [] := rfl
  have last : changesTo id [Statement.commit, .elsewhere, .commit] = [] := rfl
  have none_ : changesTo id l.statements = [] := by
    simp only [Loop.statements, Loop.start, Loop.release, changesTo_append, reads, committed, last,
      changesTo_assign_of_ne others, l.idle, l.saved, List.append_nil]
  have present := mem_changesTo.mpr member
  rw [none_] at present
  cases present

theorem fetched_loop (own : l.agents = db.agentsOf l.departmentId) (row : Workflow) (k : ℕ) :
    Fetched db (opening (.load row) ++ l.statements.take k) := by
  have whole : Fetched db (opening (.load row) ++ l.statements) := by
    have split : opening (.load row) ++ l.statements = (opening (.load row) ++ l.reads) ++
        (assign l.agents (starts l.task) ++ [.commit] ++ l.busy ++ l.release ++
          [.commit, .elsewhere, .commit]) := by simp [Loop.statements, Loop.start]
    rw [split]
    have read : .getAgents l.departmentId ∈ opening (.load row) ++ l.reads := by
      simp [Loop.reads]
    refine fetched_of_read (fun _ => rfl) read ?_
    intro id change member
    have inside : .agent id change ∈ l.statements := by
      simpa [Loop.statements, Loop.start, Loop.reads] using member
    rw [← own]
    exact loop_listed inside
  refine whole.start ?_
  rw [List.prefix_append_right_inj]
  exact List.take_prefix k _

/-- Only what the department's own rows become counts. -/
theorem released_map : Released departmentId run (rows.map (rowAfter run)) ↔
    ∀ row ∈ rows.filter fun agent => agent.departmentId == some departmentId,
      Free run (rowAfter run row) := by
  simp [Released]

theorem rowAfter_congr {first : List Statement} {agent : AgentInstance}
    (same : changesTo agent.id first = changesTo agent.id run) :
    rowAfter first agent = rowAfter run agent := by
  rw [rowAfter, same, rowAfter]

/-- The agents where the orchestrator has finished. -/
theorem runWorkflow_agents (keys : (db.agentInstances.map AgentInstance.id).Nodup)
    (supported : (Workflows.WorkflowCopy.load row).supported = true) {behaviour : Behaviour}
    (own : l.agents = db.agentsOf l.departmentId)
    (part : behaviour.statements row.id = l.statements.take k) (escalationId : String) :
    (runWorkflow (.load row) behaviour escalationId db).agentInstances =
      db.agentInstances.map (rowAfter (l.statements.take k)) := by
  have last : ∀ left id, changesTo id (closing left escalationId behaviour.outcome) = [] :=
    fun left id => silent_of_owned row.id (closing_owned left escalationId behaviour.outcome) id
  unfold runWorkflow
  rw [program_supported behaviour escalationId supported, part,
    (tracks_execute keys _ ((fetched_loop own row k).append (last _))).stored, settled_closing]
  refine List.map_congr_left fun agent _ => rowAfter_congr ?_
  rw [changesTo_append, changesTo_append, last, List.append_nil]
  rfl

/-- The agents where the session can write nothing more behind the agent's call. -/
theorem execute_agents (keys : (db.agentInstances.map AgentInstance.id).Nodup)
    (own : l.agents = db.agentsOf l.departmentId) (row : Workflow) (k : ℕ) :
    (execute (Session.start db (.load row))
      (opening (.load row) ++ l.statements.take k)).db.agentInstances =
      db.agentInstances.map (rowAfter (settled (l.statements.take k))) := by
  rw [(tracks_execute keys _ (fetched_loop own row k)).stored, CrashPoints.settled_opening]
  exact List.map_congr_left fun agent _ => rowAfter_congr rfl

theorem released_part (keys : (db.agentInstances.map AgentInstance.id).Nodup)
    (supported : (Workflows.WorkflowCopy.load row).supported = true) {behaviour : Behaviour}
    (own : l.agents = db.agentsOf l.departmentId)
    (part : behaviour.statements row.id = l.statements.take k) (escalationId : String) :
    Released l.departmentId (behaviour.statements row.id)
        (runWorkflow (.load row) behaviour escalationId db).agentInstances ↔
      l.agents = [] ∨ (k ≤ 2 ∧ ∀ row ∈ l.agents, row.status ≠ .running) ∨
        2 + l.agents.length * 5 + l.busy.length + l.saves.length ≤ k := by
  rw [runWorkflow_agents keys supported own part, part, released_map, ← free_take, own]
  rfl

theorem settled_part (keys : (db.agentInstances.map AgentInstance.id).Nodup)
    {behaviour : Behaviour} (own : l.agents = db.agentsOf l.departmentId)
    (part : behaviour.statements row.id = l.statements.take k) :
    Released l.departmentId (settled (behaviour.statements row.id))
        (cutOff row behaviour db).agentInstances ↔
      l.agents = [] ∨ (k ≤ 2 + l.agents.length * 2 ∧ ∀ row ∈ l.agents, row.status ≠ .running) ∨
        4 + l.agents.length * 5 + l.busy.length + l.saves.length ≤ k := by
  rw [cutOff, part, execute_agents keys own row k, released_map, ← free_settled, own]
  rfl

end Rows

/-! The loop of a department. -/

section Department

variable (str : Value → String) (department : Department) (agents : List AgentInstance)
variable (workflowId : String) (payload : Value) (plan : Plan) (output : Value)

/-- The statements in front of the report. -/
def beforeReport : List Statement :=
  (startAgents str department agents payload ++ inspectUntrustedText workflowId plan ++
    propose plan (proposals str department output)).flatMap (AgentStep.statements workflowId)

/-- The number of statements up to the one that takes the last agent's task away: the report has
four for the department, and three for every agent. -/
def releasedAt : ℕ :=
  (beforeReport str department agents workflowId payload plan output).length + 4 +
    (agents.length * 3 - 1)

def operate (distinct : (agents.map AgentInstance.id).Nodup) : Loop where
  departmentId := department.id
  agents
  task := format str (mode payload) ++ " operating loop"
  busy := (inspectUntrustedText workflowId plan ++
    propose plan (proposals str department output)).flatMap (AgentStep.statements workflowId)
  saves :=
    let metrics := departmentMetrics department.departmentType department.status.value
      department.revenueSignals output (proposals str department output).length
    [.department (.lastOutput output), .elsewhere, .department (.revenueSignals metrics.2),
      .department (.healthScore metrics.1)]
  status := if (proposals str department output).length = 0 then .idle else .waitingForApproval
  output := .object [("workflow_id", .string workflowId),
    ("summary", (entry output "summary").getD .null)]
  distinct
  free := by
    by_cases none_ : (proposals str department output).length = 0
    · rw [if_pos none_]
      exact AgentRuntimeStatus.noConfusion
    · rw [if_neg none_]
      exact AgentRuntimeStatus.noConfusion
  idle id := by
    apply silent_of_owned workflowId
    rw [List.flatMap_append, List.all_append, inspect_owned, propose_owned]
    rfl
  saved _ := rfl
  between := by simp

variable (distinct : (agents.map AgentInstance.id).Nodup)

theorem beforeReport_eq : beforeReport str department agents workflowId payload plan output =
    let l := operate str department agents workflowId payload plan output distinct
    l.start ++ [.commit] ++ l.busy := by
  simp [beforeReport, operate, startAgents, Loop.start, Loop.reads, assign, starts,
    AgentStep.statements, List.flatMap_assoc]

theorem operate_statements :
    (startAgents str department agents payload ++ inspectUntrustedText workflowId plan ++
      propose plan (proposals str department output) ++ report department agents workflowId output
        (proposals str department output).length).flatMap (AgentStep.statements workflowId) =
      (operate str department agents workflowId payload plan output distinct).statements := by
  rw [List.flatMap_append, ← beforeReport, beforeReport_eq _ _ _ _ _ _ _ distinct]
  simp [report, operate, Loop.statements, Loop.release, assign, releases, AgentStep.statements,
    List.flatMap_assoc]

/-- Without an output the loop stops in front of the proposals. -/
theorem first_take : (startAgents str department agents payload ++
      inspectUntrustedText workflowId plan).flatMap (AgentStep.statements workflowId) =
    (operate str department agents workflowId payload plan .null distinct).statements.take
      (beforeReport str department agents workflowId payload plan .null).length := by
  have none_ : ∀ key, items .null key = [] := fun _ => rfl
  have nothing : proposals str department .null = [] := by simp [proposals, none_]
  have same : beforeReport str department agents workflowId payload plan .null =
      (startAgents str department agents payload ++
        inspectUntrustedText workflowId plan).flatMap (AgentStep.statements workflowId) := by
    simp [beforeReport, nothing, propose]
  have split : (operate str department agents workflowId payload plan .null distinct).statements =
      beforeReport str department agents workflowId payload plan .null ++
        (report department agents workflowId .null (proposals str department .null).length).flatMap
          (AgentStep.statements workflowId) := by
    rw [← operate_statements, List.flatMap_append]
    rfl
  rw [split, List.take_left, same]

theorem length_beforeReport :
    (beforeReport str department agents workflowId payload plan output).length =
      3 + agents.length * 2 +
        (operate str department agents workflowId payload plan output distinct).busy.length := by
  rw [beforeReport_eq _ _ _ _ _ _ _ distinct]
  simp only [List.length_append, length_start, List.length_cons, List.length_nil, operate]
  omega

variable {plan output}

theorem loop_some (generated :
      generateDepartmentOutput str department payload plan.inspection = some output) :
    let whole := (operate str department agents workflowId payload plan output distinct).statements
    (operatingLoop str department agents workflowId payload plan).statements workflowId =
      whole.take (reach plan whole.length) := by
  unfold operatingLoop
  simp only [generated]
  rw [interrupt_take, operate_statements _ _ _ _ _ _ _ distinct]

theorem loop_none (failed :
      generateDepartmentOutput str department payload plan.inspection = none) :
    let before := (beforeReport str department agents workflowId payload plan .null).length
    (operatingLoop str department agents workflowId payload plan).statements workflowId =
      (operate str department agents workflowId payload plan .null distinct).statements.take
        (min (reach plan before) before) := by
  intro before
  unfold operatingLoop
  simp only [failed]
  have first := first_take str department agents workflowId payload plan distinct
  unfold reach
  cases plan.cut with
  | none =>
    refine List.take_length.trans ?_
    rw [first, Option.map_none, Option.getD_none, min_self]
  | some at_ =>
    rw [← List.take_take, ← first]
    rfl

variable (plan)

/-- The loop that a run is a part of, and how far it comes. -/
structure Part (l : Loop) (k : ℕ) : Prop where
  own : l.departmentId = department.id
  rows : l.agents = agents
  run : (operatingLoop str department agents workflowId payload plan).statements
    workflowId = l.statements.take k
  early : k ≤ 2 ↔ ∃ cut ∈ plan.cut, cut.1 ≤ 2
  released : agents ≠ [] → (2 + agents.length * 5 + l.busy.length + l.saves.length ≤ k ↔
    ∃ output ∈ generateDepartmentOutput str department payload plan.inspection,
      ∀ cut ∈ plan.cut,
        releasedAt str department agents workflowId payload plan output ≤ cut.1)
  started : ∀ cut ∈ plan.cut, k ≤ 2 + agents.length * 2 ↔ cut.1 ≤ 2 + agents.length * 2
  saved : agents ≠ [] → ∀ cut ∈ plan.cut,
    (4 + agents.length * 5 + l.busy.length + l.saves.length ≤ k ↔
      ∃ output ∈ generateDepartmentOutput str department payload plan.inspection,
        releasedAt str department agents workflowId payload plan output + 2 ≤ cut.1)

include distinct in
theorem loop_part : ∃ l k, Part str department agents workflowId payload plan l k := by
  have before := fun output => length_beforeReport str department agents workflowId payload plan
    output distinct
  have saves : ∀ output, (operate str department agents workflowId payload plan output
    distinct).saves.length = 4 := fun _ => rfl
  have rows : ∀ output, (operate str department agents workflowId payload plan output
    distinct).agents = agents := fun _ => rfl
  cases generated : generateDepartmentOutput str department payload plan.inspection with
  | some output =>
    have run := loop_some str department agents workflowId payload distinct generated
    refine ⟨_, _, rfl, rfl, run, ?_, ?_, ?_, ?_⟩
    all_goals
      simp only [length_statements, saves, rows, releasedAt, before, reach, generated,
        Option.mem_some_iff, exists_eq_left']
      generalize (operate str department agents workflowId payload plan output
        distinct).busy.length = busy
    · cases plan.cut <;> simp
    · intro some_
      have least := List.length_pos_iff.mpr some_
      cases plan.cut with
      | none => simp
      | some at_ => simp; omega
    · intro cut stopped
      simp [Option.mem_def.mp stopped]
    · intro some_ cut stopped
      have least := List.length_pos_iff.mpr some_
      simp [Option.mem_def.mp stopped]
      omega
  | none =>
    have run := loop_none str department agents workflowId payload distinct generated
    refine ⟨_, _, rfl, rfl, run, ?_, ?_, ?_, ?_⟩
    all_goals
      simp only [before, saves, reach, generated, Option.not_mem_none, false_and, exists_false,
        iff_false]
      generalize (operate str department agents workflowId payload plan .null
        distinct).busy.length = busy
    · cases plan.cut <;> simp <;> omega
    · intro some_
      have least := List.length_pos_iff.mpr some_
      omega
    · intro cut stopped
      simp [Option.mem_def.mp stopped]
      omega
    · intro some_ cut stopped
      have least := List.length_pos_iff.mpr some_
      omega

end Department

section Release

variable (str : Value → String) (plan : Plan) {db : CompanyDatabase} {row : Workflow}
variable {department : Department}

/-- The agents of an active department are released exactly by a loop without agents, by one that
comes to the release of the last of them, or by one that fails in front of the first of them and
finds none running; where it is a commit that fails, the commits decide. -/
theorem agents_released_iff (kind : row.kind = "department_operation")
    (names : entry row.payload "department_id" = some (.string department.id))
    (known : db.department department.id = some department) (active : department.status = .active)
    (keys : (db.agentInstances.map AgentInstance.id).Nodup) :
    let agents := db.agentsOf department.id
    let behaviour := DepartmentAgent.run str row.id row.payload plan db
    let generated := generateDepartmentOutput str department row.payload plan.inspection
    let release := releasedAt str department agents row.id row.payload plan
    (Released department.id (behaviour.statements row.id)
        (runWorkflow (.load row) behaviour plan.escalationId db).agentInstances ↔
      agents = [] ∨ (∃ output ∈ generated, ∀ cut ∈ plan.cut, release output ≤ cut.1) ∨
        (∃ cut ∈ plan.cut, cut.1 ≤ 2) ∧ ∀ agent ∈ agents, agent.status ≠ .running) ∧
    ∀ cut ∈ plan.cut,
      (Released department.id (settled (behaviour.statements row.id))
          (cutOff row behaviour db).agentInstances ↔
        agents = [] ∨ (∃ output ∈ generated, release output + 2 ≤ cut.1) ∨
          cut.1 ≤ 2 + agents.length * 2 ∧ ∀ agent ∈ agents, agent.status ≠ .running) := by
  intro agents behaviour generated release
  have supported : (Workflows.WorkflowCopy.load row).supported = true := by
    simp [Workflows.WorkflowCopy.supported, Workflows.WorkflowCopy.load, kind]
  have loops : behaviour = operatingLoop str department agents row.id row.payload plan := by
    simp only [behaviour, DepartmentAgent.run, names, known]
    rw [if_neg (not_not.mpr active)]
  have distinct : (agents.map AgentInstance.id).Nodup :=
    keys.sublist (List.filter_sublist.map _)
  obtain ⟨l, k, part⟩ := loop_part str department agents row.id row.payload plan distinct
  have run : behaviour.statements row.id = l.statements.take k := loops ▸ part.run
  have own : l.agents = db.agentsOf l.departmentId := by rw [part.rows, part.own]
  have finished := released_part keys supported own run plan.escalationId
  have committed := settled_part keys own run
  rw [part.own, part.rows] at finished committed
  by_cases none_ : agents = []
  · simp only [none_, true_or, iff_true] at finished committed ⊢
    exact ⟨finished, fun _ _ => committed⟩
  refine ⟨?_, ?_⟩
  · rw [finished, part.early, part.released none_]
    exact or_congr_right or_comm
  · intro cut stopped
    rw [committed, part.started cut stopped, part.saved none_ cut stopped]
    exact or_congr_right or_comm

def sampleText : Value → String := fun _ => "None"

def sampleDepartment : Department where
  id := "d"
  name := "Operations"
  departmentType := "operations"
  status := .active
  healthScore := 1
  revenueSignals := .object []
  lastOutput := .null

def sampleRow : Workflow :=
  .new "w" "department_operation" "Daily loop" (.object [("department_id", .string "d")]) "api" 0

def sampleDb : CompanyDatabase where
  toDatabase := { Database.empty with workflows := [sampleRow] }
  departments := [sampleDepartment]
  agentInstances := [⟨"a", some "d", .idle, none, .null⟩]
  departmentSchedules := []

def samplePlan (cut : Option (ℕ × String)) : Plan where
  inspection := .object []
  eventId := "e"
  classify := fun _ => ⟨"high", true, ["Outbound or public communication."]⟩
  ids := fun _ => ⟨"x", "p", "k", "h"⟩
  escalationId := "f"
  cut

def sampleRun (cut : Option (ℕ × String)) : Behaviour :=
  DepartmentAgent.run sampleText sampleRow.id sampleRow.payload (samplePlan cut) sampleDb

/-- A loop that nothing interrupts. -/
theorem agents_released_sample :
    Released "d" ((sampleRun none).statements "w")
      (runWorkflow (.load sampleRow) (sampleRun none) "f" sampleDb).agentInstances := by
  have known : sampleDb.department sampleDepartment.id = some sampleDepartment := by decide
  have keys : (sampleDb.agentInstances.map AgentInstance.id).Nodup := by decide
  have kind : sampleRow.kind = "department_operation" := rfl
  have names : entry sampleRow.payload "department_id" =
    some (.string sampleDepartment.id) := rfl
  have released := agents_released_iff sampleText (samplePlan none) kind names known rfl keys
  refine released.1.mpr (.inr (.inl ⟨_, rfl, ?_⟩))
  intro cut stopped
  cases stopped

/-- The process that inspects the text fails behind the first commit. -/
theorem agents_left_running : ¬ ∀ (str : Value → String) (plan : Plan) (db : CompanyDatabase)
    (row : Workflow) (department : Department), row.kind = "department_operation" →
    entry row.payload "department_id" = some (.string department.id) →
    db.department department.id = some department → department.status = .active →
    (db.agentInstances.map AgentInstance.id).Nodup →
    Released department.id
      ((DepartmentAgent.run str row.id row.payload plan db).statements row.id)
      (runWorkflow (.load row) (DepartmentAgent.run str row.id row.payload plan db)
        plan.escalationId db).agentInstances := by
  intro law
  have released := law sampleText (samplePlan (some (5, "rust core failed"))) sampleDb sampleRow
    sampleDepartment rfl rfl (by decide) rfl (by decide)
  have running : ¬ Released "d" ((sampleRun (some (5, "rust core failed"))).statements "w")
      (runWorkflow (.load sampleRow) (sampleRun (some (5, "rust core failed"))) "f"
        sampleDb).agentInstances := by decide
  exact running released

end Release

end BusinessOs.App.AgentRelease
