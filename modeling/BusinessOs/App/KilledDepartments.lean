/- Source: app/services/departments.py, app/services/scheduler.py, app/agents/department.py
   digest: What a killed department keeps while no session acts on an older copy of it. -/

import BusinessOs.App.LifecycleLaws

set_option autoImplicit false
set_option relaxedAutoImplicit false

namespace BusinessOs.App.KilledDepartments

open BusinessOs.Lib BusinessOs.Lib.Execution BusinessOs.Lib.Interleaving BusinessOs.Lib.Json.Tree
open BusinessOs.App.Models BusinessOs.App.Company BusinessOs.App.Sessions
open BusinessOs.App.Orchestrator BusinessOs.App.DepartmentAgent BusinessOs.App.Lifecycle
open BusinessOs.App.LifecycleCommits BusinessOs.App.LifecycleLaws

/-! An older copy of a department is one that its session has read before. A session keeps its
copies here; SQLAlchemy's identity map is weak, and a copy that nothing refers to any more is read
anew. -/

/-- The workflow operates the department. -/
def belongs (departmentId : String) (db : CompanyDatabase) (workflowId : Option String) : Bool :=
  (workflowId.bind (kindOf db)).any fun workflow =>
    decide (departmentOf workflow.1 workflow.2 = some departmentId)

/-- The external actions for workflows of the department. -/
def actionsOf (departmentId : String) (db : CompanyDatabase) : List (String × Option String) :=
  (requested db).filter fun action => belongs departmentId db action.2

/-- What a kill promises: no schedule and no agent of the department works any more, and there is
no external action for it but these. -/
structure Dead (departmentId : String) (actions : List (String × Option String))
    (db : CompanyDatabase) : Prop where
  status : Killed db departmentId
  schedules : ∀ schedule ∈ db.departmentSchedules, schedule.departmentId = departmentId →
    schedule.enabled = false
  agents : ∀ agent ∈ db.agentInstances, agent.departmentId = some departmentId →
    agent.status = .paused
  actions : actionsOf departmentId db = actions

section Killed

variable {departmentId : String} {actions : List (String × Option String)}
variable {db next : CompanyDatabase}

/-- Where the workflows that there are keep their departments, only new actions count. -/
theorem actionsOf_append (kinds : ∀ action ∈ requested db, belongs departmentId next action.2 =
      belongs departmentId db action.2) {others : List (String × Option String)}
    (rows : requested next = requested db ++ others) :
    actionsOf departmentId next = actionsOf departmentId db ++
      others.filter fun action => belongs departmentId next action.2 := by
  unfold actionsOf
  rw [rows, List.filter_append, List.filter_congr kinds]

theorem belongs_congr {workflowId : Option String}
    (kinds : ∀ id, workflowId = some id → kindOf next id = kindOf db id) :
    belongs departmentId next workflowId = belongs departmentId db workflowId := by
  unfold belongs
  cases workflowId with
  | none => rfl
  | some id => rw [Option.bind_some, Option.bind_some, kinds id rfl]

theorem pauseAgents_mem {id : String} {rows : List AgentInstance} {agent : AgentInstance}
    (member : agent ∈ pauseAgents id rows) :
    agent.status = .paused ∨ agent ∈ rows ∧ agent.departmentId ≠ some id := by
  obtain ⟨old, inside, rfl⟩ := List.mem_map.mp member
  by_cases own : old.departmentId = some id
  · exact .inl (by simp [own])
  · exact .inr (by simp [own, inside])

theorem setStatus_statusOf (rows : List Department) (status : DepartmentStatus)
    (id other : String) :
    (Table.get Department.id (Table.update Department.id rows id fun department =>
      { department with status }) other).map Department.status =
      if other = id then (Table.get Department.id rows other).map fun _ => status
      else (Table.get Department.id rows other).map Department.status := by
  have keeps : ∀ row : Department, { row with status }.id = row.id := fun _ => rfl
  by_cases own : other = id
  · subst own
    rw [Table.get_update_self keeps, Option.map_map, if_pos rfl]
    rfl
  · rw [Table.get_update_of_ne keeps own, if_neg own]

/-- A kill makes a department dead. -/
theorem dead_kill {department : Department} (found : db.department departmentId = some department) :
    Dead departmentId (actionsOf departmentId db) (kill departmentId db) := by
  refine ⟨?_, ?_, ?_, rfl⟩
  · have found : Table.get Department.id db.departments departmentId = some department := found
    refine (setStatus_statusOf _ _ _ _).trans ?_
    rw [if_pos rfl, found]
    rfl
  · intro schedule member own
    obtain ⟨old, _, rfl⟩ := List.mem_map.mp member
    by_cases same : old.departmentId = departmentId <;> simp [same] at own ⊢
  · intro agent member own
    rcases pauseAgents_mem member with paused | ⟨_, other⟩
    · exact paused
    · exact absurd own other

variable {P : Type} {str : Value → String} {s : World P} {e : Event P}

/-- A workflow that is inserted changes no other one's department. -/
theorem insert_actionsOf {creation : Creation} (unused : Unused db creation.id) :
    actionsOf departmentId (insertWorkflow db creation) = actionsOf departmentId db := by
  have rows : requested (insertWorkflow db creation) = requested db ++ [] :=
    (List.append_nil _).symm
  refine (actionsOf_append ?_ rows).trans (List.append_nil _)
  intro action member
  apply belongs_congr
  intro id names
  have other : creation.id ≠ id := by
    intro same
    apply unused.2
    obtain ⟨row, inside, rfl⟩ := List.mem_map.mp member
    exact List.mem_map.mpr ⟨row, inside, names.trans (congrArg some same.symm)⟩
  rw [insert_kindOf, if_neg other, Option.or_none]

theorem request_mem {program : List Statement} {action : String × Option String}
    (member : action ∈ rowsIn request? program) :
    ∃ row, .add (.action row) ∈ program ∧ action = (row.id, row.workflowId) := by
  obtain ⟨statement, inside, added⟩ := List.mem_filterMap.mp member
  cases statement with
  | add row =>
    cases row with
    | action row => exact ⟨row, inside, (Option.some.inj added).symm⟩
    | _ => cases added
  | _ => cases added

/-- An action that a call adds is one for the call's department. -/
theorem owns_belongs {call : Call} (owns : Owns db call) {row : ExternalAction}
    (added : .add (.action row) ∈ call.program) :
    belongs departmentId (call.advance db).session.db row.workflowId =
      decide (call.department = some departmentId) := by
  obtain ⟨names, all, _⟩ := owns.program
  have workflowId : row.workflowId = some call.session.workflow.id :=
    eq_of_beq (List.all_eq_true.mp all _ added)
  have kind := (owns.advance.1.kinds call.session.workflow.id).trans owns.workflow
  simp only [belongs, workflowId, Option.bind_some, kind, Option.any_some]
  rfl

/-- The department's actions after a commit. -/
theorem owns_actions {call : Call} (owns : Owns db call) (departmentId : String) :
    actionsOf departmentId (call.advance db).session.db = actionsOf departmentId db ++
      (rowsIn request? (call.program.takeWhile fun statement => statement != .commit)).filter
        fun action => belongs departmentId (call.advance db).session.db
          action.2 := by
  have committed := owns.advance.1
  refine actionsOf_append ?_ committed.requested
  intro action _
  exact belongs_congr fun id _ => committed.kinds id

/-- The commit of a call that spares a killed department leaves it as it is. -/
theorem Dead.commit {call : Call} (dead : Dead departmentId actions db)
    (agents : ((roster db).map Prod.fst).Nodup) (owns : Owns db call) (spares : Spares db call) :
    Dead departmentId actions (call.advance db).session.db := by
  obtain ⟨names, all, listed⟩ := owns.program
  have committed := owns.advance.1
  have quiet : call.department = some departmentId →
      ∀ statement ∈ call.program.takeWhile (fun statement => statement != .commit),
        acts statement = false := by
    intro own statement member
    have none_ := spares departmentId own dead.status
    rw [List.any_eq_false] at none_
    simpa using none_ statement (List.mem_append_left _ member)
  have inside : ∀ statement ∈ call.program.takeWhile (fun statement => statement != .commit),
      statement ∈ call.program := fun statement member => (List.takeWhile_sublist _).subset member
  refine ⟨?_, ?_, ?_, ?_⟩
  · exact (committed.departments departmentId).trans dead.status
  · rw [committed.schedules]
    exact dead.schedules
  · intro agent member belongs
    rcases committed.agents agent member with ⟨old, stood, _, department, status⟩ | ⟨status, set⟩
    · exact status ▸ dead.agents old stood (department.trans belongs)
    · -- The agent is one of the call's department, which is then this one.
      exfalso
      have named : agent.id ∈ names := of_decide_eq_true (List.all_eq_true.mp all _ (inside _ set))
      obtain ⟨other, department, held⟩ := listed agent.id named
      have present : (agent.id, some departmentId) ∈ roster db := by
        rw [← committed.roster, ← belongs]
        exact List.mem_map_of_mem member
      have same := List.inj_on_of_nodup_map agents held present rfl
      obtain rfl : other = departmentId := Option.some.inj (Prod.mk.inj same).2
      have still := quiet department _ set
      cases still
  · refine (owns_actions owns departmentId).trans ?_
    rw [dead.actions, List.append_right_eq_self, List.filter_eq_nil_iff]
    intro action member
    obtain ⟨row, added, rfl⟩ := request_mem member
    rw [owns_belongs owns (inside _ added), decide_eq_true_iff]
    intro department
    have still := quiet department _ added
    cases still

/-- A commit that adds an action of the department breaks the promise, whatever else it writes. -/
theorem added_action {call : Call} (owns : Owns db call)
    (own : call.department = some departmentId) {row : ExternalAction}
    (added : .add (.action row) ∈ call.segment) :
    ¬ Dead departmentId (actionsOf departmentId db) (call.advance db).session.db := by
  intro dead
  have first : .add (.action row) ∈
      call.program.takeWhile fun statement => statement != .commit := by
    rcases List.mem_append.mp added with first | last
    · exact first
    · cases List.mem_singleton.mp last
  have new : (row.id, row.workflowId) ∈
      rowsIn request? (call.program.takeWhile fun statement => statement != .commit) :=
    rowsIn_mem (.action row) first rfl
  have none_ := (owns_actions owns departmentId).symm.trans dead.actions
  rw [List.append_right_eq_self, List.filter_eq_nil_iff] at none_
  apply none_ _ new
  rw [owns_belongs owns ((List.takeWhile_sublist _).subset first), own]
  exact decide_eq_true rfl

/-- A pause takes the status away, whatever it was. -/
theorem pause_revives : ¬ Killed (pause departmentId db) departmentId := by
  intro still
  have paused := (setStatus_statusOf db.departments .paused departmentId departmentId).symm.trans
    still
  rw [if_pos rfl] at paused
  obtain ⟨row, _, wrong⟩ := Option.map_eq_some_iff.mp paused
  cases wrong

/-- A change that heeds the kill leaves a dead department dead. -/
theorem Dead.change (dead : Dead departmentId actions s.db)
    (agents : ((roster s.db).map Prod.fst).Nodup) (heeds : Heeds str s e)
    (change : Change str s e db) : Dead departmentId actions db := by
  obtain ⟨status, schedules, paused, same⟩ := dead
  cases change with
  | pause =>
    rename_i p id
    have other : departmentId ≠ id := by
      rintro rfl
      exact heeds status
    refine ⟨?_, schedules, ?_, same⟩
    · refine (setStatus_statusOf _ _ _ _).trans ?_
      rw [if_neg other]
      exact status
    · intro agent member own
      rcases pauseAgents_mem member with paused | ⟨inside, _⟩
      · exact paused
      · exact paused agent inside own
  | kill found =>
    rename_i p id department
    refine ⟨?_, ?_, ?_, same⟩
    · refine (setStatus_statusOf _ _ _ _).trans ?_
      split
      · obtain ⟨row, present, _⟩ := Option.map_eq_some_iff.mp status
        exact Option.map_eq_some_iff.mpr ⟨row, present, rfl⟩
      · exact status
    · intro schedule member own
      obtain ⟨old, inside, rfl⟩ := List.mem_map.mp member
      by_cases here : old.departmentId = id
      · simp [here]
      · simp only [here, if_false] at own ⊢
        exact schedules old inside own
    · intro agent member own
      rcases pauseAgents_mem member with stopped | ⟨inside, _⟩
      · exact stopped
      · exact paused agent inside own
  | read => exact ⟨status, schedules, paused, same⟩
  | insert unused => exact ⟨status, schedules, paused, (insert_actionsOf unused).trans same⟩
  | write write =>
    cases write with
    | audit entry => exact ⟨status, schedules, paused, same⟩
    | schedule id lastRunAt nextRunAt =>
      refine ⟨status, ?_, paused, same⟩
      intro schedule member own
      rcases Table.mem_update member with ⟨inside, _⟩ | ⟨old, inside, _, rfl⟩
      · exact schedules schedule inside own
      · exact schedules old inside own
  | commit owns spares =>
    exact Dead.commit ⟨status, schedules, paused, same⟩ agents owns (spares heeds)

end Killed

section Runs

variable {P : Type} [DecidableEq P] {str : Value → String} {start before killed s : World P}
variable {es fs : List (Event P)} {p : P} {departmentId : String}

/-- From the commit of a kill on the department is dead, in every run whose events heed the kill. -/
theorem killed_stays_dead (initial : Initial start)
    (run : Run (ofPartial (step str)) start es before)
    (kill : step str before (.kill p departmentId) = some killed)
    (later : Run (Guarded (Heeds str) (ofPartial (step str))) killed fs s) :
    Dead departmentId (actionsOf departmentId killed.db) s.db := by
  have inv : Inv before :=
    run.invariant (fun _ _ _ inv taken => inv_step inv taken) (inv_initial initial)
  have dead : Dead departmentId (actionsOf departmentId killed.db) killed.db := by
    simp only [step] at kill
    split at kill
    · obtain ⟨department, found, rfl⟩ := Option.map_eq_some_iff.mp kill
      exact dead_kill found
    · cases kill
  have keep : ∀ (a : World P) (e : Event P) (b : World P),
      Inv a ∧ Dead departmentId (actionsOf departmentId killed.db) a.db →
      Guarded (Heeds str) (ofPartial (step str)) a e b →
      Inv b ∧ Dead departmentId (actionsOf departmentId killed.db) b.db := by
    intro a e b kept guarded
    obtain ⟨inv, dead⟩ := kept
    obtain ⟨heeds, taken⟩ := guarded
    refine ⟨inv_step inv taken, ?_⟩
    obtain ⟨p, db, process, rfl, change, _⟩ := step_change inv taken
    exact dead.change inv.agents heeds change
  exact (later.invariant keep ⟨inv_step inv kill, dead⟩).2

end Runs

section Sample

inductive Party
  | operator | runner
  deriving DecidableEq

def sampleText : Value → String := fun _ => "None"

instance (s : World Party) (e : Event Party) : Decidable (Heeds sampleText s e) :=
  match e with
  | .pause _ id => inferInstanceAs (Decidable (¬ Killed s.db id))
  | .commit p => inferInstanceAs (Decidable (∀ call ∈ (s.phase p).call, Spares s.db call))
  | .call p plan other => inferInstanceAs (Decidable (∀ call ∈ (s.phase p).call,
      Spares s.db (call.start s.db sampleText plan other)))
  | .kill _ _ | .tick _ _ | .pass _ | .request _ _ _ _ | .create _ _ _ | .iterate _ _ _ =>
    isTrue trivial

def sampleWorld : World Party where
  db :=
    { toDatabase := .empty
      departments := [⟨"d", "Content", "content", .active, 1, .object [], .null⟩]
      agentInstances := [⟨"a", some "d", .idle, none, .null⟩]
      departmentSchedules := [⟨"s", "d", "Daily autonomous operating loop", "daily",
        "department_operation", .object [], true, some 0, none⟩] }
  phase := fun _ => .idle

theorem sampleWorld_initial : Initial sampleWorld := ⟨fun _ => rfl, by decide, by decide⟩

def samplePlan : Plan where
  inspection := .object []
  eventId := "e"
  classify := fun _ => ⟨"high", true, ["Outbound or public communication."]⟩
  ids := fun _ => ⟨"x", "p", "k", "h"⟩
  escalationId := "f"
  cut := none

/-- A run that is requested, up to the call of its agent. -/
def sampleRequest : List (Event Party) :=
  [.request .runner "d" "w" 0, .commit .runner, .commit .runner, .commit .runner]

def sampleCall : Event Party := .call .runner samplePlan (.raises [] 0 "")

def sampleKill : Event Party := .kill .operator "d"

def sampleKilled (s : World Party) : World Party := ((step sampleText s sampleKill).getD s)

/-- A run that is requested behind the kill passes the department by. -/
theorem killed_stays_dead_sample :
    ∃ s, Run (Guarded (Heeds sampleText) (ofPartial (step sampleText))) (sampleKilled sampleWorld)
        (sampleRequest ++ [sampleCall]) s ∧
      Dead "d" (actionsOf "d" (sampleKilled sampleWorld).db) s.db := by
  have runs : ((sampleRequest ++ [sampleCall]).foldlM (fun s e =>
      if Heeds sampleText s e then step sampleText s e else none)
        (sampleKilled sampleWorld)).isSome := by decide
  obtain ⟨s, last⟩ := Option.isSome_iff_exists.mp runs
  have run := Run.of_guarded_foldlM last
  have kill : step sampleText sampleWorld (.kill .operator "d") =
      some (sampleKilled sampleWorld) := rfl
  exact ⟨s, run, killed_stays_dead sampleWorld_initial (.nil _) kill run⟩

def sampleBefore : World Party :=
  (sampleRequest.foldlM (step sampleText) sampleWorld).getD sampleWorld

def sampleAfter : World Party :=
  (step sampleText (sampleKilled sampleBefore) sampleCall).getD sampleBefore

/-- A run whose session has read the department before the kill starts its agents behind it. -/
theorem works_on : ¬ ∀ (start before killed s : World Party) (es fs : List (Event Party))
    (p : Party) (departmentId : String), Initial start →
    Run (ofPartial (step sampleText)) start es before →
    step sampleText before (.kill p departmentId) = some killed →
    Run (ofPartial (step sampleText)) killed fs s →
    Dead departmentId (actionsOf departmentId killed.db) s.db := by
  intro law
  have first : sampleRequest.foldlM (step sampleText) sampleWorld = some sampleBefore := rfl
  have kill : step sampleText sampleBefore (.kill .operator "d") =
      some (sampleKilled sampleBefore) := rfl
  have later : step sampleText (sampleKilled sampleBefore) sampleCall = some sampleAfter := rfl
  have dead := law _ _ _ _ _ _ _ _ sampleWorld_initial (.of_foldlM first) kill (.single later)
  have works : sampleAfter.db.agentInstances.map AgentInstance.status = [.running] := by decide
  obtain ⟨agent, only, own⟩ : ∃ agent, sampleAfter.db.agentInstances = [agent] ∧
    agent.departmentId = some "d" := ⟨_, rfl, rfl⟩
  have paused := dead.agents agent (by rw [only]; exact List.mem_cons_self) own
  rw [only, List.map_singleton, paused] at works
  cases works

end Sample

end BusinessOs.App.KilledDepartments
