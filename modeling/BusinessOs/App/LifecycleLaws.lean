/- Source: app/services/departments.py, app/services/scheduler.py, app/agents/department.py
   digest: What the sessions of departments keep, and how their commits change the rows. -/

import BusinessOs.App.DepartmentEffects
import BusinessOs.App.LifecycleCommits

set_option autoImplicit false
set_option relaxedAutoImplicit false

namespace BusinessOs.App.LifecycleLaws

open BusinessOs.Lib BusinessOs.Lib.Execution BusinessOs.Lib.Interleaving BusinessOs.Lib.Json.Tree
open BusinessOs.App.Models BusinessOs.App.Workflows BusinessOs.App.Company
open BusinessOs.App.Scheduler (pendingWorkflows pendingWorkflows_mem)
open BusinessOs.App.Sessions BusinessOs.App.Orchestrator BusinessOs.App.DepartmentAgent
open BusinessOs.App.DepartmentEffects BusinessOs.App.Lifecycle BusinessOs.App.LifecycleCommits

def Killed (db : CompanyDatabase) (departmentId : String) : Prop :=
  statusOf db departmentId = some .killed

/-- A statement that starts or stops an agent, or adds an external action. -/
def acts : Statement → Bool
  | .agent _ (.status _) | .add (.action _) => true
  | _ => false

/-- The next commit of a call does not act for a killed department. -/
def Spares (db : CompanyDatabase) (call : Call) : Prop :=
  ∀ id ∈ call.department, Killed db id → call.segment.any acts = false

instance (db : CompanyDatabase) (departmentId : String) : Decidable (Killed db departmentId) :=
  inferInstanceAs (Decidable (statusOf db departmentId = _))

instance (db : CompanyDatabase) (call : Call) : Decidable (Spares db call) :=
  inferInstanceAs (Decidable (∀ id ∈ call.department, Killed db id → _ = _))

section World

variable {P : Type} (str : Value → String)

/-- A killed department is not paused, and a session that has taken it for active before the kill
acts no more. -/
def Heeds (s : World P) : Event P → Prop
  | .pause _ id => ¬ Killed s.db id
  | .commit p => ∀ call ∈ (s.phase p).call, Spares s.db call
  | .call p plan other => ∀ call ∈ (s.phase p).call, Spares s.db (call.start s.db str plan other)
  | _ => True

/-- Closed sessions, over rows with distinct ids. -/
structure Initial (s : World P) : Prop where
  closed : ∀ p, s.phase p = .idle
  workflows : (s.db.workflows.map Workflow.id).Nodup
  agents : (s.db.agentInstances.map AgentInstance.id).Nodup

end World

/-! The statements of a call. -/

/-- Statements for one workflow, and for agents that are listed. -/
def owned (workflowId : String) (agents : List String) : Statement → Bool
  | .agent id _ => decide (id ∈ agents)
  | .add (.action action) => action.workflowId == some workflowId
  | _ => true

section Owned

variable {workflowId : String} {agents : List String} {first rest : List Statement}

theorem startAgents_owned (str : Value → String) (department : Department)
    (rows : List AgentInstance) (payload : Value) :
    ((startAgents str department rows payload).flatMap (AgentStep.statements workflowId)).all
      (owned workflowId (rows.map AgentInstance.id)) = true := by
  have listed : ∀ agent ∈ rows, ∃ other ∈ rows, other.id = agent.id :=
    fun agent member => ⟨agent, member, rfl⟩
  simpa [startAgents, AgentStep.statements, owned, List.all_append, List.all_flatMap] using listed

theorem inspect_owned (plan : Plan) :
    ((inspectUntrustedText workflowId plan).flatMap (AgentStep.statements workflowId)).all
      (owned workflowId agents) = true := by
  cases flags : flagged plan.inspection <;>
    simp [inspectUntrustedText, flags, AgentStep.statements, owned]

theorem propose_owned (plan : Plan) (proposals : List Proposal) :
    ((propose plan proposals).flatMap (AgentStep.statements workflowId)).all
      (owned workflowId agents) = true := by
  rw [List.all_flatMap, List.all_eq_true]
  intro step member
  obtain ⟨⟨proposal, i⟩, _, rfl⟩ := List.mem_map.mp member
  cases gated : (plan.classify i).requiresApproval <;>
    simp [Plan.request, AgentStep.statements, requestExternalAction, askHuman, recordPacket, gated,
      owned, proposedAction]

theorem report_owned (department : Department) (rows : List AgentInstance) (output : Value)
    (approvals : ℕ) :
    ((report department rows workflowId output approvals).flatMap
      (AgentStep.statements workflowId)).all (owned workflowId (rows.map AgentInstance.id)) =
      true := by
  have listed : ∀ agent ∈ rows, ∃ other ∈ rows, other.id = agent.id :=
    fun agent member => ⟨agent, member, rfl⟩
  simpa [report, AgentStep.statements, owned, List.all_append, List.all_flatMap] using listed

theorem closing_owned (left : WorkflowCopy) (escalationId : String)
    (outcome : Except String Value) :
    (closing left escalationId outcome).all (owned workflowId agents) = true := by
  unfold closing
  rw [List.all_append, List.all_flatMap]
  have records : (finishRecords left escalationId outcome).all (fun record =>
      [Statement.add (Orchestrator.row record), .commit].all (owned workflowId agents)) = true := by
    rw [List.all_eq_true]
    intro record _
    cases record <;> rfl
  rw [records]
  rfl

theorem interrupt_owned {plan : Plan} {steps : List AgentStep} {result : Value}
    (whole : (steps.flatMap (AgentStep.statements workflowId)).all (owned workflowId agents) =
      true) :
    ((plan.interrupt steps result).statements workflowId).all (owned workflowId agents) = true := by
  obtain ⟨k, same⟩ := interrupt_statements workflowId plan steps result
  rw [same, List.all_eq_true]
  exact fun statement member => List.all_eq_true.mp whole statement (List.mem_of_mem_take member)

theorem loop_owned (str : Value → String) (department : Department) (rows : List AgentInstance)
    (payload : Value) (plan : Plan) :
    ((operatingLoop str department rows workflowId payload plan).statements workflowId).all
      (owned workflowId (rows.map AgentInstance.id)) = true := by
  have first : ((startAgents str department rows payload ++ inspectUntrustedText workflowId
      plan).flatMap (AgentStep.statements workflowId)).all
        (owned workflowId (rows.map AgentInstance.id)) = true := by
    rw [List.flatMap_append, List.all_append, startAgents_owned, inspect_owned]
    rfl
  have cut : ∀ k, (((startAgents str department rows payload ++ inspectUntrustedText workflowId
      plan).flatMap (AgentStep.statements workflowId)).take k).all
        (owned workflowId (rows.map AgentInstance.id)) = true := by
    intro k
    rw [List.all_eq_true]
    exact fun statement member =>
      List.all_eq_true.mp first statement (List.mem_of_mem_take member)
  unfold operatingLoop
  cases generateDepartmentOutput str department payload plan.inspection with
  | none =>
    cases plan.cut with
    | none => exact cut _
    | some at_ => exact cut at_.1
  | some output =>
    apply interrupt_owned
    rw [List.flatMap_append, List.flatMap_append, List.all_append, List.all_append, first,
      propose_owned, report_owned]
    rfl

/-- The agent of a department sets the agents of the department that its payload names. -/
theorem run_owned (workflowId : String) (str : Value → String) (payload : Value) (plan : Plan)
    (db : CompanyDatabase) :
    ∃ rows : List AgentInstance,
      ((DepartmentAgent.run str workflowId payload plan db).statements workflowId).all
        (owned workflowId (rows.map AgentInstance.id)) = true ∧
      ∀ agent ∈ rows, ∃ id, departmentOf "department_operation" payload = some id ∧
        agent ∈ db.agentInstances ∧ agent.departmentId = some id := by
  unfold DepartmentAgent.run
  split
  · rename_i id names
    split
    · exact ⟨[], rfl, fun _ member => by cases member⟩
    · rename_i department found
      split
      · exact ⟨[], interrupt_owned rfl, fun _ member => by cases member⟩
      · refine ⟨db.agentsOf id, loop_owned str department _ payload plan, ?_⟩
        intro agent member
        obtain ⟨inside, own⟩ := List.mem_filter.mp member
        refine ⟨id, ?_, inside, eq_of_beq own⟩
        simp [departmentOf, names]
  · exact ⟨[], rfl, fun _ member => by cases member⟩
  · exact ⟨[], rfl, fun _ member => by cases member⟩

end Owned

/-! What every session keeps. -/

/-- The rows that the sessions rely on are still there. -/
structure Extends (db next : CompanyDatabase) : Prop where
  kinds : ∀ id workflow, kindOf db id = some workflow → kindOf next id = some workflow
  roster : roster next = roster db

/-- A call works for its own workflow, and for agents of its own department. -/
structure Owns (db : CompanyDatabase) (call : Call) : Prop where
  workflow : kindOf db call.session.workflow.id =
    some (call.session.workflow.kind, call.payload)
  clean : Clean call.session
  program : ∃ agents : List String,
    call.program.all (owned call.session.workflow.id agents) = true ∧
    ∀ id ∈ agents, ∃ departmentId, call.department = some departmentId ∧
      (id, some departmentId) ∈ roster db

structure Lawful (db : CompanyDatabase) (process : Process) : Prop where
  departments : ∀ copy ∈ process.departments, copy.status.current = copy.status.loaded
  agents : ∀ copy ∈ process.agents, copy.status.current = copy.status.loaded
  call : ∀ call ∈ process.call, Owns db call
  tasks : ∀ workflow payload, .runWorkflow workflow payload ∈ process.tasks →
    kindOf db workflow.id = some (workflow.kind, payload)

section Laws

variable {db next : CompanyDatabase} {call : Call} {process : Process}

theorem Extends.refl (db : CompanyDatabase) : Extends db db := ⟨fun _ _ found => found, rfl⟩

theorem Owns.extend (owns : Owns db call) (extends_ : Extends db next) : Owns next call := by
  obtain ⟨agents, all, listed⟩ := owns.program
  refine ⟨extends_.kinds _ _ owns.workflow, owns.clean, agents, all, ?_⟩
  intro id member
  obtain ⟨departmentId, own, inside⟩ := listed id member
  exact ⟨departmentId, own, extends_.roster ▸ inside⟩

theorem Lawful.extend (lawful : Lawful db process) (extends_ : Extends db next) :
    Lawful next process :=
  ⟨lawful.departments, lawful.agents, fun call held => (lawful.call call held).extend extends_,
    fun workflow payload member => extends_.kinds _ _ (lawful.tasks workflow payload member)⟩

/-- A session that has just begun. -/
theorem lawful_tasks {tasks : List Task} (known : ∀ workflow payload,
    .runWorkflow workflow payload ∈ tasks →
      kindOf db workflow.id = some (workflow.kind, payload)) :
    Lawful db { Process.idle with tasks } := by
  refine ⟨?_, ?_, ?_, known⟩
  all_goals
    intro _ member
    cases member

theorem Lawful.get (lawful : Lawful db process) {id : String} {copy : DepartmentCopy}
    (held : process.get db id = some copy) : copy.status.current = copy.status.loaded := by
  rcases Option.or_eq_some_iff.mp held with own | ⟨_, loaded⟩
  · exact lawful.departments copy (List.mem_of_find?_eq_some own)
  · obtain ⟨row, _, rfl⟩ := Option.map_eq_some_iff.mp loaded
    rfl

/-- The call after its next commit. -/
theorem Owns.advance (owns : Owns db call) :
    Committed (call.program.takeWhile fun statement => statement != .commit) db
        (call.advance db).session.db ∧
      Owns (call.advance db).session.db (call.advance db) := by
  have clean : Clean { call.session with db } :=
    ⟨owns.clean.added, owns.clean.links, owns.clean.department, owns.clean.agents⟩
  have apart : .commit ∉ call.program.takeWhile fun statement => statement != .commit := by
    intro member
    have other := List.mem_takeWhile_imp member
    simp at other
  have committed : Committed _ db (call.advance db).session.db := commit_spec clean apart
  have workflow : (call.advance db).session.workflow =
      copyAfter call.session.workflow call.segment := execute_workflow
  have id : (call.advance db).session.workflow.id = call.session.workflow.id := by
    rw [workflow, copyAfter_id]
  have kind : (call.advance db).session.workflow.kind = call.session.workflow.kind := by
    rw [workflow, (agent_fixed call.segment).2.1]
  have payload : (call.advance db).payload = call.payload := rfl
  refine ⟨committed, ?_, ?_, ?_⟩
  · rw [id, kind, payload]
    exact (committed.kinds _).trans owns.workflow
  · show Clean (execute _ (_ ++ [.commit]))
    rw [execute_snoc]
    exact clean_commit _
  · obtain ⟨agents, all, listed⟩ := owns.program
    refine ⟨agents, ?_, ?_⟩
    · rw [id, List.all_eq_true]
      intro statement member
      have inside := (List.dropWhile_sublist _).subset (List.mem_of_mem_drop member)
      exact List.all_eq_true.mp all statement inside
    · intro agent member
      obtain ⟨departmentId, own, inside⟩ := listed agent member
      refine ⟨departmentId, ?_, ?_⟩
      · unfold Call.department at own ⊢
        rw [kind, payload, own]
      · rw [committed.roster]
        exact inside

theorem Lawful.resume (lawful : Lawful db process) (owns : Owns db call) :
    Lawful db (process.resume call) := by
  unfold Process.resume
  split
  · refine ⟨?_, owns.clean.agents, fun _ held => (by cases held), lawful.tasks⟩
    intro copy member
    cases held : call.session.department with
    | none => exact lawful.departments copy (by simpa [held] using member)
    | some own =>
      have split : copy = own ∨ copy ∈ process.departments := by
        have member : copy ∈ hold process.departments own := by simpa [held] using member
        rcases List.mem_cons.mp member with same | other
        · exact .inl same
        · exact .inr (List.mem_filter.mp other).1
      rcases split with rfl | other
      · exact owns.clean.department copy held
      · exact lawful.departments copy other
  · refine ⟨lawful.departments, lawful.agents, ?_, lawful.tasks⟩
    intro other held
    obtain rfl : call = other := Option.some.inj held
    exact owns

theorem Lawful.enter (lawful : Lawful db process) {workflow : WorkflowCopy} {payload : Value}
    (known : kindOf db workflow.id = some (workflow.kind, payload)) :
    Owns db (process.enter db workflow payload) := by
  refine ⟨known, ⟨rfl, rfl, ?_, lawful.agents⟩, [], rfl, fun _ member => (by cases member)⟩
  intro copy member
  obtain ⟨id, _, held⟩ := Option.bind_eq_some_iff.mp member
  exact lawful.departments copy (List.mem_of_find?_eq_some held)

/-- The rows of the agents are those of the database, whatever copy of the department there is. -/
theorem view_agents (call : Call) (db : CompanyDatabase) :
    (call.view db).agentInstances = db.agentInstances := by
  unfold Call.view
  split <;> rfl

theorem Owns.start (owns : Owns db call) (str : Value → String) (plan : Plan) {other : Behaviour}
    (own : (other.statements call.session.workflow.id).all
      (foreign call.session.workflow.id) = true) :
    Owns db (call.start db str plan other) := by
  refine ⟨owns.workflow, owns.clean, ?_⟩
  by_cases kind : call.session.workflow.kind = "department_operation"
  · obtain ⟨rows, all, listed⟩ := run_owned call.session.workflow.id str call.payload plan
      (call.view db)
    refine ⟨rows.map AgentInstance.id, ?_, ?_⟩
    · unfold Call.start
      simp only [kind, if_true, List.all_append, all, closing_owned, Bool.and_self]
    · intro id member
      obtain ⟨agent, inside, rfl⟩ := List.mem_map.mp member
      obtain ⟨departmentId, names, present, belongs⟩ := listed agent inside
      refine ⟨departmentId, ?_, ?_⟩
      · show departmentOf call.session.workflow.kind call.payload = _
        rw [kind, names]
      · rw [view_agents] at present
        exact List.mem_map.mpr ⟨agent, present, by rw [belongs]⟩
  · refine ⟨[], ?_, fun _ member => (by cases member)⟩
    unfold Call.start
    simp only [kind, if_false, List.all_append, closing_owned, Bool.and_true]
    rw [List.all_eq_true] at own ⊢
    intro statement member
    have foreign := own statement member
    cases statement with
    | add row => cases row <;> exact foreign
    | agent id change => cases foreign
    | _ => rfl

end Laws

/-! What a step does to the rows, and that it keeps the laws. -/

section Changes

variable {P : Type} (str : Value → String) {s : World P}

/-- The changes of the rows, one for each kind of commit. -/
inductive Change (s : World P) : Event P → CompanyDatabase → Prop
  | pause {p : P} {id : String} : Change s (.pause p id) (pause id s.db)
  | kill {p : P} {id : String} {department : Department}
      (found : s.db.department id = some department) : Change s (.kill p id) (kill id s.db)
  | read {e : Event P} : Change s e s.db
  | insert {e : Event P} {creation : Creation} (unused : Unused s.db creation.id) :
      Change s e (insertWorkflow s.db creation)
  | write {e : Event P} (write : Write) : Change s e (write.apply s.db)
  | commit {e : Event P} {call : Call} (owns : Owns s.db call)
      (spares : Heeds str s e → Spares s.db call) : Change s e (call.advance s.db).session.db

/-- The sessions' laws, over rows with distinct ids. -/
structure Inv (s : World P) : Prop where
  workflows : (s.db.workflows.map Workflow.id).Nodup
  agents : ((roster s.db).map Prod.fst).Nodup
  lawful : ∀ p, Lawful s.db (s.phase p)

theorem pauseAgents_roster (departmentId : String) (rows : List AgentInstance) :
    (pauseAgents departmentId rows).map (fun agent => (agent.id, agent.departmentId)) =
      rows.map fun agent => (agent.id, agent.departmentId) := by
  unfold pauseAgents
  rw [List.map_map]
  apply List.map_congr_left
  intro agent _
  by_cases own : agent.departmentId = some departmentId <;> simp [own]

theorem insert_kindOf {db : CompanyDatabase} {creation : Creation} (id : String) :
    kindOf (insertWorkflow db creation) id = (kindOf db id).or
      (if creation.id = id then some (creation.kind, creation.payload) else none) := by
  have found : (insertWorkflow db creation).workflow id =
      (db.workflow id).or (if creation.id = id then some creation.row else none) :=
    Table.get_append creation.row
  unfold kindOf
  rw [found]
  cases db.workflow id with
  | some row => rfl
  | none => by_cases own : creation.id = id <;> simp [own, Creation.row, Workflow.new]

variable {str}

theorem Change.extends_ {e : Event P} {db : CompanyDatabase} (change : Change str s e db) :
    Extends s.db db := by
  cases change with
  | pause => exact ⟨fun _ _ found => found, pauseAgents_roster _ _⟩
  | kill found => exact ⟨fun _ _ found => found, pauseAgents_roster _ _⟩
  | read => exact .refl _
  | insert unused =>
    refine ⟨?_, rfl⟩
    intro id workflow found
    rw [insert_kindOf, found]
    rfl
  | write write => cases write <;> exact ⟨fun _ _ found => found, rfl⟩
  | commit owns spares =>
    have committed := owns.advance.1
    exact ⟨fun id workflow found => (committed.kinds id).trans found, committed.roster⟩

theorem Change.workflows {e : Event P} {db : CompanyDatabase} (change : Change str s e db)
    (keys : (s.db.workflows.map Workflow.id).Nodup) : (db.workflows.map Workflow.id).Nodup := by
  cases change with
  | insert unused => exact Table.nodup_append keys unused.1
  | write write => cases write <;> exact keys
  | commit owns spares => exact owns.advance.1.keys ▸ keys
  | _ => exact keys

end Changes

section Steps

variable {P : Type} [DecidableEq P] {str : Value → String} {s t : World P} {e : Event P}

/-- A workflow that has just been inserted is known. -/
theorem inserted {db : CompanyDatabase} {creation : Creation} (unused : Unused db creation.id) :
    kindOf (insertWorkflow db creation) creation.id = some (creation.kind, creation.payload) := by
  have missing : kindOf db creation.id = none := by
    unfold kindOf
    rw [Option.map_eq_none_iff]
    exact Table.get_eq_none.mpr unused.1
  rw [insert_kindOf, missing, if_pos rfl]
  rfl

/-- A step changes the rows in one of these ways, and keeps the law of its session. -/
def Changes (str : Value → String) (s : World P) (e : Event P) (t : World P) : Prop :=
  ∃ p db process, t = s.move p db process ∧ Change str s e db ∧ Lawful db process

/-- A pass over the queue knows the workflows that it selects. -/
theorem pass_change {p : P} (inv : Inv s) (taken : step str s (.pass p) = some t) :
    Changes str s (.pass p) t := by
  simp only [step] at taken
  split at taken
  · obtain rfl := Option.some.inj taken
    refine ⟨p, _, _, rfl, .read, lawful_tasks ?_⟩
    intro workflow payload member
    obtain ⟨row, selected, same⟩ := List.mem_map.mp member
    obtain ⟨rfl, rfl⟩ := Task.runWorkflow.inj same
    have found : s.db.workflow row.id = some row :=
      Table.get_of_mem inv.workflows (pendingWorkflows_mem selected).1
    show (s.db.workflow row.id).map _ = _
    rw [found]
    rfl
  · cases taken

/-- A turn of the scheduler's loop inserts a workflow, or skips its schedule. -/
theorem iterate_change {p : P} {id : String} {createdAt : ℤ} (inv : Inv s)
    (taken : step str s (.iterate p id createdAt) = some t) :
    Changes str s (.iterate p id createdAt) t := by
  have own := inv.lawful p
  simp only [step] at taken
  split at taken
  · rename_i now schedule tasks call queue
    have later : ∀ task ∈ tasks, task ∈ (s.phase p).tasks := by
      rw [queue]
      exact fun task member => List.mem_cons_of_mem _ member
    split at taken
    · obtain rfl := Option.some.inj taken
      exact ⟨p, _, _, rfl, .read, own.departments, own.agents, own.call,
        fun workflow payload member => own.tasks workflow payload (later _ member)⟩
    · rename_i copy held
      split at taken
      · rename_i unused
        obtain rfl := Option.some.inj taken
        have change : Change str s (.iterate p id createdAt)
            (insertWorkflow s.db (scheduledCreation schedule copy id createdAt)) := .insert unused
        have kept := own.extend change.extends_
        refine ⟨p, _, _, rfl, change, ?_, kept.agents, kept.call, ?_⟩
        · intro other member
          rcases List.mem_cons.mp member with rfl | earlier
          · exact own.get held
          · exact own.departments other (List.mem_filter.mp earlier).1
        · intro workflow payload member
          rcases List.mem_append.mp member with new | old
          · obtain ⟨rfl, rfl⟩ : workflow = _ ∧ payload = _ := by simpa using new
            exact inserted unused
          · exact kept.tasks workflow payload (later _ old)
      · cases taken
  · cases taken

/-- A commit ends a segment of a call, writes a row of the scheduler, or enters a workflow. -/
theorem commit_change {p : P} (inv : Inv s) (taken : step str s (.commit p) = some t) :
    Changes str s (.commit p) t := by
  have own := inv.lawful p
  simp only [step] at taken
  split at taken
  · rename_i tasks call held
    split at taken
    · cases taken
    · obtain rfl := Option.some.inj taken
      have owns := own.call call held
      have change : Change str s (.commit p) (call.advance s.db).session.db :=
        .commit owns fun heeds => heeds call held
      exact ⟨p, _, _, rfl, change, (own.extend change.extends_).resume owns.advance.2⟩
  · rename_i write tasks call queue
    obtain rfl := Option.some.inj taken
    have change : Change str s (.commit p) (write.apply s.db) := .write write
    have kept := own.extend change.extends_
    refine ⟨p, _, _, rfl, change, kept.departments, kept.agents, kept.call, ?_⟩
    intro workflow payload member
    exact kept.tasks workflow payload (queue ▸ List.mem_cons_of_mem _ member)
  · rename_i workflow payload tasks call queue
    have known := own.tasks workflow payload (queue ▸ List.mem_cons_self)
    split at taken
    · obtain rfl := Option.some.inj taken
      have owns := own.enter known
      have change : Change str s (.commit p)
          ((s.phase p).enter s.db workflow payload |>.advance s.db).session.db :=
        .commit owns fun _ _ _ _ => rfl
      have kept := own.extend change.extends_
      refine ⟨p, _, _, rfl, change, kept.departments, kept.agents, ?_, ?_⟩
      · intro other held
        obtain rfl := Option.some.inj held
        exact owns.advance.2
      · intro workflow payload member
        exact kept.tasks workflow payload (queue ▸ List.mem_cons_of_mem _ member)
    · obtain rfl := Option.some.inj taken
      refine ⟨p, _, _, rfl, .read, own.departments, own.agents, own.call, ?_⟩
      intro workflow payload member
      exact own.tasks workflow payload (queue ▸ List.mem_cons_of_mem _ member)
  · cases taken

theorem call_change {p : P} {plan : Plan} {other : Behaviour} (inv : Inv s)
    (taken : step str s (.call p plan other) = some t) : Changes str s (.call p plan other) t := by
  have own := inv.lawful p
  simp only [step] at taken
  split at taken
  · rename_i call held
    split at taken
    · rename_i ready
      obtain rfl := Option.some.inj taken
      have owns := (own.call call held).start str plan ready.2.2
      have change : Change str s (.call p plan other)
          ((call.start s.db str plan other).advance s.db).session.db :=
        .commit owns fun heeds => heeds call held
      exact ⟨p, _, _, rfl, change, (own.extend change.extends_).resume owns.advance.2⟩
    · cases taken
  · cases taken

theorem step_change (inv : Inv s) (taken : step str s e = some t) : Changes str s e t := by
  cases e with
  | pause p departmentId =>
    simp only [step] at taken
    split at taken
    · obtain ⟨department, found, rfl⟩ := Option.map_eq_some_iff.mp taken
      refine ⟨p, _, _, rfl, .pause, lawful_tasks ?_⟩
      simp
    · cases taken
  | kill p departmentId =>
    simp only [step] at taken
    split at taken
    · obtain ⟨department, found, rfl⟩ := Option.map_eq_some_iff.mp taken
      refine ⟨p, _, _, rfl, .kill found, lawful_tasks ?_⟩
      simp
    · cases taken
  | tick p now =>
    simp only [step] at taken
    split at taken
    · obtain rfl := Option.some.inj taken
      refine ⟨p, _, _, rfl, .read, lawful_tasks ?_⟩
      intro workflow payload member
      obtain ⟨schedule, _, other⟩ := List.mem_map.mp member
      cases other
    · cases taken
  | pass p => exact pass_change inv taken
  | request p departmentId id createdAt =>
    simp only [step] at taken
    split at taken
    · rename_i ready
      obtain ⟨department, found, rfl⟩ := Option.map_eq_some_iff.mp taken
      refine ⟨p, _, _, rfl, .insert ready.2.2, ?_, ?_, ?_, ?_⟩
      · intro copy member
        obtain rfl := List.mem_singleton.mp member
        rfl
      · intro copy member
        cases member
      · intro call held
        cases held
      · intro workflow payload member
        obtain ⟨rfl, rfl⟩ : workflow = _ ∧ payload = _ := by simpa using member
        exact inserted ready.2.2
    · cases taken
  | create p creation runImmediately =>
    simp only [step] at taken
    split at taken
    · rename_i ready
      obtain rfl := Option.some.inj taken
      refine ⟨p, _, _, rfl, .insert ready.2.2, lawful_tasks ?_⟩
      intro workflow payload member
      cases runImmediately with
      | false => simp at member
      | true =>
        obtain ⟨rfl, rfl⟩ : workflow = _ ∧ payload = _ := by simpa using member
        exact inserted ready.2.2
    · cases taken
  | iterate p id createdAt => exact iterate_change inv taken
  | commit p => exact commit_change inv taken
  | call p plan other => exact call_change inv taken

theorem inv_step (inv : Inv s) (taken : step str s e = some t) : Inv t := by
  obtain ⟨p, db, process, rfl, change, lawful⟩ := step_change inv taken
  refine ⟨change.workflows inv.workflows, ?_, ?_⟩
  · show ((roster db).map Prod.fst).Nodup
    rw [change.extends_.roster]
    exact inv.agents
  · exact forall_move lawful fun q _ => (inv.lawful q).extend change.extends_

omit [DecidableEq P] in
theorem inv_initial (initial : Initial s) : Inv s := by
  refine ⟨initial.workflows, ?_, ?_⟩
  · unfold roster
    rw [List.map_map]
    exact initial.agents
  · intro p
    rw [initial.closed p]
    exact lawful_tasks fun _ _ member => by cases member

end Steps

end BusinessOs.App.LifecycleLaws
