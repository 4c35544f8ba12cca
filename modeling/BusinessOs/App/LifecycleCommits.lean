/- Source: app/db.py, app/agents/department.py, app/agents/orchestrator.py
   digest: What one commit of a session changes in the rows of departments and their workflows. -/

import BusinessOs.App.Lifecycle

set_option autoImplicit false
set_option relaxedAutoImplicit false

namespace BusinessOs.App.LifecycleCommits

open BusinessOs.Lib BusinessOs.Lib.UnitOfWork BusinessOs.Lib.Json.Tree
open BusinessOs.App.Models BusinessOs.App.Workflows BusinessOs.App.Company
open BusinessOs.App.Sessions BusinessOs.App.Orchestrator

def statusOf (db : CompanyDatabase) (departmentId : String) : Option DepartmentStatus :=
  (db.department departmentId).map Department.status

/-- What no commit changes in the row of a workflow. -/
def kindOf (db : CompanyDatabase) (id : String) : Option (String × Value) :=
  (db.workflow id).map fun row => (row.kind, row.payload)

/-- The agents with their departments. -/
def roster (db : CompanyDatabase) : List (String × Option String) :=
  db.agentInstances.map fun agent => (agent.id, agent.departmentId)

/-- The external actions with their workflows. -/
def requested (db : CompanyDatabase) : List (String × Option String) :=
  db.externalActions.map fun action => (action.id, action.workflowId)

def request? (row : Row) : Option (String × Option String) :=
  row.action?.map fun action => (action.id, action.workflowId)

/-- A session that has nothing to write about a department or an agent's status. -/
structure Clean (s : Session) : Prop where
  added : s.added = .none
  links : s.links = []
  department : ∀ copy ∈ s.department, copy.status.current = copy.status.loaded
  agents : ∀ copy ∈ s.agents, copy.status.current = copy.status.loaded

/-- A session behind some statements without a commit. -/
structure Between (start : Session) (first : List Statement) (s : Session) : Prop where
  db : s.db = start.db
  department : ∀ copy ∈ s.department, copy.status.current = copy.status.loaded
  agents : ∀ copy ∈ s.agents, copy.status.current = copy.status.loaded ∨
    ∃ status, .agent copy.id (.status status) ∈ first

/-- A row as it was, apart from columns other than its status. -/
def SameAgent (old agent : AgentInstance) : Prop :=
  old.id = agent.id ∧ old.departmentId = agent.departmentId ∧ old.status = agent.status

/-- What a commit behind some statements leaves of the rows. -/
structure Committed (first : List Statement) (db next : CompanyDatabase) : Prop where
  departments : ∀ id, statusOf next id = statusOf db id
  schedules : next.departmentSchedules = db.departmentSchedules
  keys : next.workflows.map Workflow.id = db.workflows.map Workflow.id
  kinds : ∀ id, kindOf next id = kindOf db id
  roster : roster next = roster db
  agents : ∀ agent ∈ next.agentInstances,
    (∃ old ∈ db.agentInstances, SameAgent old agent) ∨
    ∃ status, .agent agent.id (.status status) ∈ first
  requested : requested next = requested db ++ rowsIn request? first

section Statements

variable {start s : Session} {first : List Statement}

theorem Between.run (between : Between start first s) {last : Statement}
    (other : last ≠ .commit) : Between start (first ++ [last]) (last.run s) := by
  have agents : ∀ copy ∈ s.agents, copy.status.current = copy.status.loaded ∨
      ∃ status, .agent copy.id (.status status) ∈ first ++ [last] := by
    intro copy member
    refine (between.agents copy member).imp_right ?_
    intro ⟨status, set⟩
    exact ⟨status, List.mem_append_left _ set⟩
  refine ⟨(run_db other).trans between.db, ?_, ?_⟩
  · intro copy member
    cases last with
    | commit => exact absurd rfl other
    | getDepartment id =>
      cases held : s.department with
      | some department =>
        have same : copy = department := by simpa [Statement.run, held, eq_comm] using member
        exact between.department copy (same ▸ held)
      | none =>
        have loaded : copy ∈ (s.db.department id).map DepartmentCopy.load := by
          simpa [Statement.run, held] using member
        obtain ⟨row, _, rfl⟩ := Option.mem_map.mp loaded
        rfl
    | department change =>
      obtain ⟨old, held, rfl⟩ := Option.mem_map.mp member
      cases change with
      | lastOutput output => exact between.department old held
      | revenueSignals signals => exact between.department old held
      | healthScore score => exact between.department old held
    | _ => exact between.department copy member
  · intro copy member
    cases last with
    | commit => exact absurd rfl other
    | getAgents departmentId =>
      rcases List.mem_append.mp member with held | loaded
      · exact agents copy held
      · obtain ⟨row, _, rfl⟩ := List.mem_map.mp loaded
        exact .inl rfl
    | agent id change =>
      obtain ⟨old, held, same⟩ := List.mem_map.mp member
      by_cases own : old.id = id
      · rw [if_pos own] at same
        subst same own
        cases change with
        | status status => exact .inr ⟨status, List.mem_append_right _ List.mem_cons_self⟩
        | currentTask task => exact agents old held
        | lastOutput output => exact agents old held
      · rw [if_neg own] at same
        exact same ▸ agents old held
    | _ => exact agents copy member

theorem between_execute (clean : Clean start) (apart : .commit ∉ first) :
    Between start first (execute start first) := by
  induction first using List.reverseRecOn with
  | nil => exact ⟨rfl, clean.department, fun copy member => .inl (clean.agents copy member)⟩
  | append_singleton first last ih =>
    rw [execute_snoc]
    apply Between.run
    · exact ih fun member => apart (List.mem_append_left _ member)
    · intro same
      exact apart (List.mem_append_right _ (List.mem_singleton.mpr same.symm))

theorem clean_commit (s : Session) : Clean s.commit := by
  refine ⟨rfl, rfl, ?_, ?_⟩
  · intro copy member
    obtain ⟨old, _, rfl⟩ := Option.mem_map.mp member
    rfl
  · intro copy member
    obtain ⟨old, _, rfl⟩ := List.mem_map.mp member
    rfl

end Statements

section Flush

variable {rows : List AgentInstance} {copies : List AgentCopy}

theorem flushAgents_roster :
    (flushAgents copies rows).map (fun agent => (agent.id, agent.departmentId)) =
      rows.map fun agent => (agent.id, agent.departmentId) := by
  unfold flushAgents
  induction copies generalizing rows with
  | nil => rfl
  | cons copy copies ih =>
    rw [List.foldl_cons, ih, Table.map_update]
    exact fun _ => rfl

/-- A status that changes is the changed status of a copy. -/
theorem flushAgents_mem {agent : AgentInstance} (member : agent ∈ flushAgents copies rows) :
    (∃ old ∈ rows, SameAgent old agent) ∨
      ∃ copy ∈ copies, copy.id = agent.id ∧ copy.status.current ≠ copy.status.loaded := by
  unfold flushAgents at member
  induction copies generalizing rows with
  | nil => exact .inl ⟨agent, member, rfl, rfl, rfl⟩
  | cons copy copies ih =>
    rw [List.foldl_cons] at member
    rcases ih member with ⟨old, updated, id, department, status⟩ | ⟨later, inside, changed⟩
    · rcases Table.mem_update updated with ⟨inside, _⟩ | ⟨row, inside, own, rfl⟩
      · exact .inl ⟨old, inside, id, department, status⟩
      · by_cases same : copy.status.current = copy.status.loaded
        · have kept : (copy.flush row).status = row.status := flush_of_eq same
          exact .inl ⟨row, inside, id, department, kept.symm.trans status⟩
        · exact .inr ⟨copy, List.mem_cons_self, own.symm.trans id, same⟩
    · exact .inr ⟨later, List.mem_cons_of_mem _ inside, changed⟩

theorem flush_statusOf {s : Session} {id : String}
    (same : ∀ copy ∈ s.department, copy.status.current = copy.status.loaded) :
    statusOf s.flush id = statusOf s.db id := by
  cases held : s.department with
  | none =>
    have kept : s.flush.departments = s.db.departments := by simp [Session.flush, held]
    simp only [statusOf, CompanyDatabase.department, kept]
  | some copy =>
    have updated : s.flush.departments = Table.update Department.id s.db.departments copy.id
        copy.flush := by simp [Session.flush, held]
    have status : ∀ row : Department, (copy.flush row).status = row.status :=
      fun row => flush_of_eq (same copy held)
    simp only [statusOf, CompanyDatabase.department, updated]
    by_cases own : id = copy.id
    · subst own
      rw [Table.get_update_self copy.flush_id, Option.map_map]
      exact congrArg (Option.map · _) (funext status)
    · rw [Table.get_update_of_ne copy.flush_id own]

theorem flush_kindOf (s : Session) (id : String) : kindOf s.flush id = kindOf s.db id := by
  unfold kindOf
  by_cases own : id = s.workflow.id
  · subst own
    rw [flush_self, Option.map_map]
    rfl
  · rw [flush_of_ne own]

end Flush

/-- The commit of a session that was clean. -/
theorem commit_spec {s : Session} {first : List Statement} (clean : Clean s)
    (apart : .commit ∉ first) :
    Committed first s.db (execute s (first ++ [.commit])).db := by
  obtain ⟨db, department, agents⟩ := between_execute clean apart
  have last : (execute s (first ++ [.commit])).db = (execute s first).flush := by
    rw [execute_snoc]
    rfl
  have rows : requested (execute s (first ++ [.commit])).db =
      requested s.db ++ rowsIn request? (settled (first ++ [.commit])) :=
    (actions_grow (fun action => (action.id, action.workflowId)) fun _ _ => rfl).committed (by
      rw [clean.added]
      rfl)
  rw [settled_commit, rowsIn_snoc (by simp)] at rows
  refine ⟨?_, ?_, ?_, ?_, ?_, ?_, rows⟩
  · intro id
    rw [last, flush_statusOf department, db]
  · rw [last, ← db]
    rfl
  · rw [last, ← db]
    exact Table.keys_update fun row => flush_id row
  · intro id
    rw [last, flush_kindOf, db]
  · rw [last, ← db]
    exact flushAgents_roster
  · intro agent member
    rw [last] at member
    rcases flushAgents_mem member with old | ⟨copy, inside, own, changed⟩
    · exact .inl (db ▸ old)
    · rcases agents copy inside with same | set
      · exact absurd same changed
      · exact .inr (own ▸ set)

/-! The statements up to the next commit of a call. -/

section Segment

variable {s : Session} {first : List Statement} {call : Lifecycle.Call} {db : CompanyDatabase}

theorem execute_db (between : .commit ∉ first) : (execute s first).db = s.db := by
  induction first using List.reverseRecOn with
  | nil => rfl
  | append_singleton first last ih =>
    rw [List.mem_append, List.mem_singleton, not_or] at between
    rw [execute_snoc, run_db (Ne.symm between.2), ih between.1]

/-- The statements up to the first commit, and those behind it. -/
theorem cut_at (rest : List Statement) (apart : .commit ∉ first) :
    (first ++ .commit :: rest).takeWhile (fun statement => statement != .commit) = first ∧
      ((first ++ .commit :: rest).dropWhile fun statement => statement != .commit).drop 1 =
        rest := by
  have others : ∀ statement ∈ first, (statement != .commit) = true := by
    intro statement member
    rw [bne_iff_ne]
    rintro rfl
    exact apart member
  rw [List.takeWhile_append_of_pos others, List.dropWhile_append_of_pos others]
  simp

theorem takeWhile_apart (program : List Statement) :
    .commit ∉ program.takeWhile fun statement => statement != .commit := by
  intro member
  have other := List.mem_takeWhile_imp member
  simp at other

theorem advance_session : (call.advance db).session =
    (execute { call.session with db }
      (call.program.takeWhile fun statement => statement != .commit)).commit :=
  execute_snoc ..

theorem advance_department (call : Lifecycle.Call) (db : CompanyDatabase) :
    (call.advance db).department = call.department := by
  have workflow : (call.advance db).session.workflow =
      copyAfter call.session.workflow call.segment := execute_workflow
  unfold Lifecycle.Call.department
  rw [workflow, (agent_fixed call.segment).2.1]
  rfl

end Segment

end BusinessOs.App.LifecycleCommits
