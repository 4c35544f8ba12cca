/- Source: app/db.py, app/agents/orchestrator.py, app/agents/base.py, app/services/guardrails.py
   digest: One session as a program of assignments, additions and commits. -/

import BusinessOs.App.Company
import BusinessOs.App.Guardrails
import Mathlib.Data.List.DropRight
import Mathlib.Data.List.Induction

set_option autoImplicit false
set_option relaxedAutoImplicit false

namespace BusinessOs.App.Sessions

open BusinessOs.Lib BusinessOs.Lib.UnitOfWork BusinessOs.Lib.Json.Tree
open BusinessOs.App.Models BusinessOs.App.Workflows BusinessOs.App.Company

/-- Rows given to `session.add` and not yet written. -/
structure Pending where
  humanApprovals : List HumanApproval
  externalActions : List ExternalAction
  auditLogs : List AuditLog
  escalations : List Escalation
  deriving DecidableEq

def Pending.none : Pending := ⟨[], [], [], []⟩

/-- A session inside `run_workflow`: the committed rows, its copies, and what it has not yet
written. A link is an assignment to `external_action.approval_id`. -/
structure Session where
  db : CompanyDatabase
  workflow : WorkflowCopy
  department : Option DepartmentCopy
  agents : List AgentCopy
  added : Pending
  links : List (String × String)
  deriving DecidableEq

inductive Row
  | approval (row : HumanApproval)
  | action (row : ExternalAction)
  | audit (row : AuditLog)
  | escalation (row : Escalation)
  deriving DecidableEq

def Pending.add (pending : Pending) : Row → Pending
  | .approval row => { pending with humanApprovals := pending.humanApprovals ++ [row] }
  | .action row => { pending with externalActions := pending.externalActions ++ [row] }
  | .audit row => { pending with auditLogs := pending.auditLogs ++ [row] }
  | .escalation row => { pending with escalations := pending.escalations ++ [row] }

/-- An assignment to an attribute of the department. -/
inductive DepartmentChange
  | lastOutput (output : Value)
  | revenueSignals (signals : Value)
  | healthScore (score : ℚ)
  deriving DecidableEq

def DepartmentChange.apply (department : DepartmentCopy) : DepartmentChange → DepartmentCopy
  | .lastOutput output => { department with lastOutput := department.lastOutput.set output }
  | .revenueSignals signals =>
    { department with revenueSignals := department.revenueSignals.set signals }
  | .healthScore score => { department with healthScore := department.healthScore.set score }

inductive AgentChange
  | status (status : AgentRuntimeStatus)
  | currentTask (task : Option String)
  | lastOutput (output : Value)
  deriving DecidableEq

def AgentChange.apply (agent : AgentCopy) : AgentChange → AgentCopy
  | .status value => { agent with status := agent.status.set value }
  | .currentTask task => { agent with currentTask := agent.currentTask.set task }
  | .lastOutput output => { agent with lastOutput := agent.lastOutput.set output }

/-- A step of `run_workflow`, or of an agent that it runs. -/
inductive Statement
  | markRunning
  | finish (outcome : Except String Value)
  | waitForHuman
  | getDepartment (id : String)
  | getAgents (departmentId : String)
  | add (row : Row)
  | link (actionId approvalId : String)
  | department (change : DepartmentChange)
  | agent (id : String) (change : AgentChange)
  | commit
  /-- A step that changes none of these rows. -/
  | elsewhere
  deriving DecidableEq

/-- The rows after the flush of a commit. -/
def Session.flush (s : Session) : CompanyDatabase :=
  { workflows := Table.update Workflow.id s.db.workflows s.workflow.id s.workflow.flush
    humanApprovals := s.db.humanApprovals ++ s.added.humanApprovals
    externalActions := s.links.foldl
      (fun rows link => Table.update ExternalAction.id rows link.1
        fun action => { action with approvalId := some link.2 })
      (s.db.externalActions ++ s.added.externalActions)
    auditLogs := s.db.auditLogs ++ s.added.auditLogs
    escalations := s.db.escalations ++ s.added.escalations
    departments := match s.department with
      | none => s.db.departments
      | some department =>
        Table.update Department.id s.db.departments department.id department.flush
    agentInstances := flushAgents s.agents s.db.agentInstances
    departmentSchedules := s.db.departmentSchedules }

def Session.commit (s : Session) : Session where
  db := s.flush
  workflow := s.workflow.committed
  department := s.department.map DepartmentCopy.committed
  agents := s.agents.map AgentCopy.committed
  added := .none
  links := []

def Statement.run (s : Session) : Statement → Session
  | .markRunning => { s with workflow := Workflows.markRunning s.workflow }
  | .finish outcome => { s with workflow := Workflows.finish s.workflow outcome }
  | .waitForHuman => { s with workflow := Workflows.waitForHuman s.workflow }
  -- Where the session has a copy of a row, `session.get` and a query return that copy.
  | .getDepartment id =>
    { s with department := s.department.or ((s.db.department id).map DepartmentCopy.load) }
  | .getAgents departmentId =>
    let absent := (s.db.agentsOf departmentId).filter fun row =>
      s.agents.all fun agent => agent.id != row.id
    { s with agents := s.agents ++ absent.map AgentCopy.load }
  | .add row => { s with added := s.added.add row }
  | .link actionId approvalId => { s with links := s.links ++ [(actionId, approvalId)] }
  | .department change =>
    { s with department := s.department.map fun department => change.apply department }
  | .agent id change =>
    { s with
      agents := s.agents.map fun agent => if agent.id = id then change.apply agent else agent }
  | .commit => s.commit
  | .elsewhere => s

def execute (s : Session) (program : List Statement) : Session := program.foldl Statement.run s

/-- A session that has read a workflow, and nothing else. -/
def Session.start (db : CompanyDatabase) (workflow : WorkflowCopy) : Session where
  db
  workflow
  department := none
  agents := []
  added := .none
  links := []

/-- What a statement does to the copy of the workflow. -/
def Statement.copy (workflow : WorkflowCopy) : Statement → WorkflowCopy
  | .markRunning => Workflows.markRunning workflow
  | .finish outcome => Workflows.finish workflow outcome
  | .waitForHuman => Workflows.waitForHuman workflow
  | .commit => workflow.committed
  | _ => workflow

/-- The copy of the workflow after a program. -/
def copyAfter (workflow : WorkflowCopy) (program : List Statement) : WorkflowCopy :=
  program.foldl Statement.copy workflow

section Execute

variable {s : Session} {statement : Statement} {program : List Statement} {id : String}

theorem execute_append (s : Session) (first rest : List Statement) :
    execute s (first ++ rest) = execute (execute s first) rest := List.foldl_append ..

theorem execute_snoc (s : Session) (program : List Statement) (last : Statement) :
    execute s (program ++ [last]) = last.run (execute s program) := by
  rw [execute_append]
  rfl

theorem copyAfter_append (workflow : WorkflowCopy) (first rest : List Statement) :
    copyAfter workflow (first ++ rest) = copyAfter (copyAfter workflow first) rest :=
  List.foldl_append ..

theorem copyAfter_snoc (workflow : WorkflowCopy) (program : List Statement) (last : Statement) :
    copyAfter workflow (program ++ [last]) = last.copy (copyAfter workflow program) := by
  rw [copyAfter_append]
  rfl

theorem run_workflow : (statement.run s).workflow = statement.copy s.workflow := by
  cases statement <;> rfl

theorem execute_workflow : (execute s program).workflow = copyAfter s.workflow program := by
  induction program using List.reverseRecOn with
  | nil => rfl
  | append_singleton program last ih =>
    rw [execute_snoc, copyAfter_snoc, run_workflow, ih]

theorem copy_id (workflow : WorkflowCopy) : (statement.copy workflow).id = workflow.id := by
  cases statement with
  | finish outcome => exact finish_id outcome
  | _ => rfl

theorem copyAfter_id (workflow : WorkflowCopy) : (copyAfter workflow program).id = workflow.id := by
  induction program using List.reverseRecOn with
  | nil => rfl
  | append_singleton program last ih => rw [copyAfter_snoc, copy_id, ih]

theorem flush_self :
    s.flush.workflow s.workflow.id = (s.db.workflow s.workflow.id).map s.workflow.flush := by
  show Table.get _ (Table.update _ _ _ _) _ = _
  exact Table.get_update_self fun row => flush_id row

theorem flush_of_ne (other : id ≠ s.workflow.id) : s.flush.workflow id = s.db.workflow id := by
  show Table.get _ (Table.update _ _ _ _) _ = _
  exact Table.get_update_of_ne (fun row => flush_id row) other

/-- Statements between two commits leave every committed row as it is. -/
theorem run_db (between : statement ≠ .commit) : (statement.run s).db = s.db := by
  cases statement with
  | commit => exact absurd rfl between
  | _ => rfl

/-- A session writes into the row of its workflow only. -/
theorem execute_workflows (s : Session) (program : List Statement) :
    ∃ change : Workflow → Workflow, (∀ row, (change row).id = row.id) ∧
      (execute s program).db.workflows =
        Table.update Workflow.id s.db.workflows s.workflow.id change := by
  induction program using List.reverseRecOn with
  | nil =>
    refine ⟨fun row => row, fun _ => rfl, ?_⟩
    exact (Table.update_of_forall fun _ _ _ => rfl).symm
  | append_singleton program last ih =>
    obtain ⟨change, keeps, rows⟩ := ih
    rw [execute_snoc]
    by_cases between : last = .commit
    · subst between
      have own : (execute s program).workflow.id = s.workflow.id := by
        rw [execute_workflow, copyAfter_id]
      refine ⟨fun row => (execute s program).workflow.flush (change row), keeps, ?_⟩
      show Table.update _ (execute s program).db.workflows (execute s program).workflow.id _ = _
      rw [rows, own, Table.update_update keeps]
    · exact ⟨change, keeps, by rw [run_db between, rows]⟩

/-- A session writes no other workflow. -/
theorem execute_of_ne (other : id ≠ s.workflow.id) :
    (execute s program).db.workflow id = s.db.workflow id := by
  obtain ⟨change, keeps, rows⟩ := execute_workflows s program
  rw [Database.workflow, rows, Table.get_update_of_ne keeps other]
  rfl

/-- The copy was read from the committed row. -/
def Attached (s : Session) : Prop :=
  ∃ row, s.db.workflow s.workflow.id = some row ∧ ReadFrom s.workflow row

theorem Attached.run (attached : Attached s) : Attached (statement.run s) := by
  obtain ⟨row, found, read⟩ := attached
  cases statement with
  | markRunning => exact ⟨row, found, read.markRunning⟩
  | finish outcome =>
    refine ⟨row, ?_, read.finish outcome⟩
    show s.db.workflow (Workflows.finish s.workflow outcome).id = _
    rw [finish_id, found]
  | waitForHuman => exact ⟨row, found, read.waitForHuman⟩
  | commit =>
    refine ⟨s.workflow.flush row, ?_, ?_⟩
    · show s.flush.workflow s.workflow.id = _
      rw [flush_self, found, Option.map_some]
    · show ReadFrom s.workflow.committed _
      rw [read.committed]
      exact load_readFrom
  | _ => exact ⟨row, found, read⟩

theorem Attached.execute (attached : Attached s) (program : List Statement) :
    Attached (execute s program) := by
  induction program using List.reverseRecOn with
  | nil => exact attached
  | append_singleton program last ih =>
    rw [execute_snoc]
    exact ih.run

/-- The committed row has the values that the copy was last read or written with. -/
theorem Attached.row (attached : Attached s) : ∃ row, s.db.workflow s.workflow.id = some row ∧
    row.status = s.workflow.status.loaded ∧ row.attempts = s.workflow.attempts.loaded ∧
    row.maxAttempts = s.workflow.maxAttempts ∧ row.kind = s.workflow.kind := by
  obtain ⟨row, found, read⟩ := attached
  exact ⟨row, found, read.status.symm, read.attempts.symm, read.maxAttempts.symm, read.kind.symm⟩

end Execute

/-! What of a program is committed: everything up to its last commit. -/

def settled (program : List Statement) : List Statement :=
  program.rdropWhile fun statement => statement != .commit

section Settled

variable {program first rest : List Statement} {statement : Statement} {workflow : WorkflowCopy}

@[simp] theorem settled_nil : settled [] = [] := rfl

theorem settled_commit (program : List Statement) :
    settled (program ++ [.commit]) = program ++ [.commit] :=
  List.rdropWhile_concat_neg _ _ _ (by simp)

theorem settled_snoc (between : statement ≠ .commit) :
    settled (program ++ [statement]) = settled program :=
  List.rdropWhile_concat_pos _ _ _ (by simpa using between)

/-- A program whose first part ends with a commit has committed that part. -/
theorem settled_append (first rest : List Statement) :
    settled (first ++ [.commit] ++ rest) = first ++ [.commit] ++ settled rest := by
  induction rest using List.reverseRecOn with
  | nil => rw [List.append_nil, settled_commit, settled_nil, List.append_nil]
  | append_singleton rest last ih =>
    rw [← List.append_assoc]
    by_cases commits : last = .commit
    · subst commits
      rw [settled_commit, settled_commit, List.append_assoc]
    · rw [settled_snoc commits, settled_snoc commits, ih]

theorem mem_of_settled (member : statement ∈ settled program) : statement ∈ program :=
  (List.rdropWhile_prefix _ _).subset member

theorem settled_isPrefix (program : List Statement) : settled program <+: program :=
  List.rdropWhile_prefix _ _

/-- Statements without a commit add nothing to the committed part. -/
theorem settled_silent (between : .commit ∉ rest) : settled (first ++ rest) = settled first := by
  induction rest using List.reverseRecOn with
  | nil => rw [List.append_nil]
  | append_singleton rest last ih =>
    rw [List.mem_append, List.mem_singleton, not_or] at between
    rw [← List.append_assoc, settled_snoc (Ne.symm between.2), ih between.1]

/-- The committed part of a part is itself a part. -/
theorem settled_take (program : List Statement) (k : ℕ) : settled (program.take k) =
    program.take (settled (program.take k)).length :=
  List.prefix_iff_eq_take.mp ((settled_isPrefix _).trans (List.take_prefix k program))

/-- A part that contains a commit has committed it. -/
theorem settled_take_commit {k : ℕ} (whole : program = first ++ [.commit] ++ rest)
    (contains : first.length < k) : first.length + 1 ≤ (settled (program.take k)).length := by
  have front : (first ++ [Statement.commit]).take k = first ++ [.commit] :=
    List.take_of_length_le (by rw [List.length_append]; exact contains)
  rw [whole, List.take_append, front, settled_append, List.length_append, List.length_append]
  exact Nat.le_add_right _ _

/-- A part that stops before the next commit has committed no more than what is in front of it. -/
theorem settled_take_silent {quiet : List Statement} {k : ℕ}
    (whole : program = first ++ quiet ++ rest) (between : .commit ∉ quiet)
    (stops : k ≤ first.length + quiet.length) :
    (settled (program.take k)).length ≤ first.length := by
  have front : program.take k = first.take k ++ quiet.take (k - first.length) := by
    rw [whole, List.take_append_of_le_length (by rwa [List.length_append]), List.take_append]
  rw [front, settled_silent fun member => between (List.mem_of_mem_take member)]
  exact (settled_isPrefix _).length_le.trans (List.length_take_le' k first)

/-- The values that a copy was last written with are those of the committed part. -/
theorem loaded_status (clean : workflow.status.loaded = workflow.status.current) :
    (copyAfter workflow program).status.loaded =
      (copyAfter workflow (settled program)).status.current := by
  induction program using List.reverseRecOn with
  | nil => exact clean
  | append_singleton program last ih =>
    rw [copyAfter_snoc]
    by_cases commits : last = .commit
    · subst commits
      rw [settled_commit, copyAfter_snoc]
      rfl
    · rw [settled_snoc commits, ← ih]
      cases last with
      | commit => exact absurd rfl commits
      | finish outcome =>
        obtain ⟨status, result, finished, _⟩ :=
          finish_cases (copyAfter workflow program) outcome
        simp only [Statement.copy, finished, Tracked.set]
      | _ => rfl

theorem loaded_attempts (clean : workflow.attempts.loaded = workflow.attempts.current) :
    (copyAfter workflow program).attempts.loaded =
      (copyAfter workflow (settled program)).attempts.current := by
  induction program using List.reverseRecOn with
  | nil => exact clean
  | append_singleton program last ih =>
    rw [copyAfter_snoc]
    by_cases commits : last = .commit
    · subst commits
      rw [settled_commit, copyAfter_snoc]
      rfl
    · rw [settled_snoc commits, ← ih]
      cases last with
      | commit => exact absurd rfl commits
      | finish outcome => simp only [Statement.copy, finish_attempts]
      | _ => rfl

end Settled

/-! What an agent may do to the copy of its workflow. -/

/-- The orchestrator's assignments are not among an agent's statements. -/
def Statement.byAgent : Statement → Bool
  | .markRunning | .finish _ => false
  | _ => true

section ByAgent

variable {program : List Statement} {workflow : WorkflowCopy}

theorem agent_attempts (agent : ∀ statement ∈ program, statement.byAgent = true) :
    (copyAfter workflow program).attempts.current = workflow.attempts.current := by
  induction program using List.reverseRecOn with
  | nil => rfl
  | append_singleton program last ih =>
    have earlier := ih fun statement member => agent statement (List.mem_append_left _ member)
    have own := agent last (by simp)
    rw [copyAfter_snoc, ← earlier]
    cases last with
    | markRunning => cases own
    | finish outcome => cases own
    | _ => rfl

/-- An agent's statements leave the status, or set it to waiting. -/
theorem agent_status (agent : ∀ statement ∈ program, statement.byAgent = true) :
    (copyAfter workflow program).status.current =
      if .waitForHuman ∈ program then .waitingForHuman else workflow.status.current := by
  induction program using List.reverseRecOn with
  | nil => rfl
  | append_singleton program last ih =>
    have earlier := ih fun statement member => agent statement (List.mem_append_left _ member)
    have own := agent last (by simp)
    rw [copyAfter_snoc]
    cases last with
    | markRunning => cases own
    | finish outcome => cases own
    | waitForHuman => simp [Statement.copy, Workflows.waitForHuman, Tracked.set]
    | commit => simpa [Statement.copy, WorkflowCopy.committed, Tracked.committed] using earlier
    | _ => simpa [Statement.copy] using earlier

theorem agent_fixed (program : List Statement) :
    (copyAfter workflow program).maxAttempts = workflow.maxAttempts ∧
      (copyAfter workflow program).kind = workflow.kind ∧
      (copyAfter workflow program).title = workflow.title := by
  induction program using List.reverseRecOn with
  | nil => exact ⟨rfl, rfl, rfl⟩
  | append_singleton program last ih =>
    rw [copyAfter_snoc]
    cases last with
    | finish outcome =>
      obtain ⟨status, result, finished, _⟩ := finish_cases (copyAfter workflow program) outcome
      simp only [Statement.copy, finished]
      exact ih
    | _ => exact ih

end ByAgent

/-! Rows that a program adds. -/

def Row.approval? : Row → Option HumanApproval
  | .approval row => some row
  | _ => none

def Row.action? : Row → Option ExternalAction
  | .action row => some row
  | _ => none

def Row.audit? : Row → Option AuditLog
  | .audit row => some row
  | _ => none

/-- The rows of one table that a program adds, in order. -/
def rowsIn {α : Type} (pick : Row → Option α) (program : List Statement) : List α :=
  program.filterMap fun
    | .add row => pick row
    | _ => none

/-- A table that only grows, by the rows of one kind that are added. -/
structure Grows {α : Type} (table : CompanyDatabase → List α) (queue : Pending → List α)
    (pick : Row → Option α) : Prop where
  none : queue .none = []
  add : ∀ pending row, queue (pending.add row) = queue pending ++ (pick row).toList
  flush : ∀ s : Session, table s.flush = table s.db ++ queue s.added

theorem approvals_grow :
    Grows (fun db => db.humanApprovals) Pending.humanApprovals Row.approval? := by
  refine ⟨rfl, fun pending row => ?_, fun _ => rfl⟩
  cases row <;> simp [Pending.add, Row.approval?]

theorem audits_grow : Grows (fun db => db.auditLogs) Pending.auditLogs Row.audit? := by
  refine ⟨rfl, fun pending row => ?_, fun _ => rfl⟩
  cases row <;> simp [Pending.add, Row.audit?]

/-- A column of the external actions that a link does not change. -/
theorem actions_grow {α : Type} (f : ExternalAction → α)
    (same : ∀ action approvalId, f { action with approvalId := some approvalId } = f action) :
    Grows (fun db => db.externalActions.map f) (fun pending => pending.externalActions.map f)
      (fun row => row.action?.map f) := by
  refine ⟨rfl, fun pending row => ?_, fun s => ?_⟩
  · cases row <;> simp [Pending.add, Row.action?]
  · have linked : ∀ (links : List (String × String)) (rows : List ExternalAction),
        (links.foldl (fun rows link => Table.update ExternalAction.id rows link.1
          fun action => { action with approvalId := some link.2 }) rows).map f = rows.map f := by
      intro links
      induction links with
      | nil => exact fun _ => rfl
      | cons link links ih =>
        intro rows
        exact (ih _).trans (Table.map_update f fun action => same action link.2)
    exact (linked s.links _).trans (List.map_append ..)

section Grows

variable {α : Type} {table : CompanyDatabase → List α} {queue : Pending → List α}
variable {pick : Row → Option α} {s : Session} {program first rest : List Statement}

theorem rowsIn_append : rowsIn pick (first ++ rest) = rowsIn pick first ++ rowsIn pick rest :=
  List.filterMap_append

theorem rowsIn_snoc {statement : Statement} (other : ∀ row, statement ≠ .add row) :
    rowsIn pick (program ++ [statement]) = rowsIn pick program := by
  rw [rowsIn_append]
  cases statement with
  | add row => exact absurd rfl (other row)
  | _ => exact List.append_nil _

/-- A column of a table that grows. -/
theorem Grows.map {β : Type} (grows : Grows table queue pick) (f : α → β) :
    Grows (fun db => (table db).map f) (fun pending => (queue pending).map f)
      (fun row => (pick row).map f) := by
  refine ⟨?_, fun pending row => ?_, fun s => ?_⟩
  · show (queue .none).map f = []
    rw [grows.none]
    rfl
  · show (queue (pending.add row)).map f = _
    rw [grows.add, List.map_append]
    cases pick row <;> rfl
  · show (table s.flush).map f = _
    rw [grows.flush, List.map_append]

/-- A part of the program adds a first part of the rows. -/
theorem rowsIn_take (pick : Row → Option α) (program : List Statement) (k : ℕ) :
    rowsIn pick (program.take k) <+: rowsIn pick program :=
  (List.take_prefix k program).filterMap _

/-- Written or not, the rows that a program has added are all there. -/
theorem Grows.all (grows : Grows table queue pick) (s : Session) (program : List Statement) :
    table (execute s program).db ++ queue (execute s program).added =
      table s.db ++ queue s.added ++ rowsIn pick program := by
  induction program using List.reverseRecOn with
  | nil => exact (List.append_nil _).symm
  | append_singleton program last ih =>
    rw [execute_snoc]
    cases last with
    | commit =>
      rw [rowsIn_snoc (by simp), ← ih]
      show table (execute s program).flush ++ queue .none = _
      rw [grows.none, List.append_nil, grows.flush]
    | add row =>
      have added : rowsIn pick [.add row] = (pick row).toList := by
        cases picked : pick row <;> simp [rowsIn, picked]
      rw [rowsIn_append, ← List.append_assoc, ← ih, added]
      show table (execute s program).db ++ queue ((execute s program).added.add row) = _
      rw [grows.add, List.append_assoc]
    | _ =>
      rw [rowsIn_snoc (by simp), ← ih]
      rfl

/-- A table holds the rows of the committed part. -/
theorem Grows.committed (grows : Grows table queue pick) (clean : queue s.added = []) :
    table (execute s program).db = table s.db ++ rowsIn pick (settled program) := by
  induction program using List.reverseRecOn with
  | nil => exact (List.append_nil _).symm
  | append_singleton program last ih =>
    rw [execute_snoc]
    by_cases commits : last = .commit
    · subst commits
      have written := grows.all s program
      rw [settled_commit, rowsIn_snoc (by simp)]
      show table (execute s program).flush = _
      rw [grows.flush, written, clean, List.append_nil]
    · rw [settled_snoc commits, run_db commits, ih]

end Grows

/-! What a session leaves of the signals of a department. -/

section Signals

/-- The signals are as they were, or what some statement has set them to. -/
def SetBy (program : List Statement) (before after : Value) : Prop :=
  after = before ∨ .department (.revenueSignals after) ∈ program

/-- The copy of the department, and the rows that its session has left. -/
structure SignalsLaw (start s : Session) (program : List Statement) : Prop where
  copy : ∀ department ∈ s.department,
    SetBy program department.revenueSignals.loaded department.revenueSignals.current
  rows : ∀ id row, s.db.department id = some row → ∃ old, start.db.department id = some old ∧
    SetBy program old.revenueSignals row.revenueSignals

theorem SetBy.mono {first rest : List Statement} {before after : Value}
    (set : SetBy first before after) : SetBy (first ++ rest) before after :=
  set.imp_right (List.mem_append_left _)

variable {start s : Session} {program : List Statement}

/-- A commit writes the row of the copy, and of no other department. -/
theorem flush_department (s : Session) {id : String} {row : Department}
    (found : s.flush.department id = some row) :
    ∃ stored, s.db.department id = some stored ∧
      (row = stored ∨ ∃ department ∈ s.department, row = department.flush stored) := by
  have found : Table.get Department.id s.flush.departments id = some row := found
  cases held : s.department with
  | none =>
    have same : s.flush.departments = s.db.departments := by simp [Session.flush, held]
    rw [same] at found
    exact ⟨row, found, .inl rfl⟩
  | some department =>
    have table : s.flush.departments = Table.update Department.id s.db.departments
        department.id department.flush := by simp [Session.flush, held]
    rw [table] at found
    by_cases own : id = department.id
    · subst own
      rw [Table.get_update_self department.flush_id] at found
      obtain ⟨stored, present, written⟩ := Option.map_eq_some_iff.mp found
      exact ⟨stored, present, .inr ⟨department, rfl, written.symm⟩⟩
    · rw [Table.get_update_of_ne department.flush_id own] at found
      exact ⟨row, found, .inl rfl⟩

/-- A session adds no department and removes none. -/
theorem execute_departments (s : Session) (program : List Statement) :
    (execute s program).db.departments.map Department.id =
      s.db.departments.map Department.id := by
  induction program using List.reverseRecOn with
  | nil => rfl
  | append_singleton program last ih =>
    rw [execute_snoc]
    by_cases commits : last = .commit
    · subst commits
      rw [← ih]
      show (execute s program).flush.departments.map Department.id = _
      cases held : (execute s program).department with
      | none => simp [Session.flush, held]
      | some department =>
        simp [Session.flush, held, Table.keys_update department.flush_id]
    · rw [run_db commits, ih]

theorem SignalsLaw.run (law : SignalsLaw start s program) (statement : Statement) :
    SignalsLaw start (statement.run s) (program ++ [statement]) := by
  have rows : ∀ id row, s.db.department id = some row → ∃ old,
      start.db.department id = some old ∧
        SetBy (program ++ [statement]) old.revenueSignals row.revenueSignals := by
    intro id row found
    obtain ⟨old, was, set⟩ := law.rows id row found
    exact ⟨old, was, set.mono⟩
  have copy : ∀ department ∈ s.department, SetBy (program ++ [statement])
      department.revenueSignals.loaded department.revenueSignals.current :=
    fun department member => (law.copy department member).mono
  cases statement with
  | getDepartment id =>
    refine ⟨?_, rows⟩
    intro department member
    cases held : s.department with
    | some other =>
      have same : department = other := by
        simpa [Statement.run, held, eq_comm] using member
      subst same
      exact copy department held
    | none =>
      have member : department ∈ (s.db.department id).map DepartmentCopy.load := by
        simpa [Statement.run, held] using member
      obtain ⟨row, _, rfl⟩ := Option.mem_map.mp member
      exact .inl rfl
  | department change =>
    refine ⟨?_, rows⟩
    intro department member
    obtain ⟨old, held, rfl⟩ := Option.mem_map.mp member
    cases change with
    | revenueSignals signals => exact .inr (List.mem_append_right _ List.mem_cons_self)
    | lastOutput output => exact copy old held
    | healthScore score => exact copy old held
  | commit =>
    refine ⟨?_, ?_⟩
    · intro department member
      obtain ⟨old, _, rfl⟩ := Option.mem_map.mp member
      exact .inl rfl
    · intro id row found
      obtain ⟨stored, present, same | ⟨department, held, written⟩⟩ := flush_department s found
      · rw [same]
        exact rows id stored present
      · obtain ⟨old, was, set⟩ := rows id stored present
        refine ⟨old, was, ?_⟩
        rw [written]
        show SetBy _ _ (department.revenueSignals.flush stored.revenueSignals)
        rcases copy department held with same | assigned
        · rwa [flush_of_eq same]
        · unfold Tracked.flush
          split
          · exact set
          · exact .inr assigned
  | _ => exact ⟨copy, rows⟩

theorem signalsLaw_execute (fresh : start.department = none) (program : List Statement) :
    SignalsLaw start (execute start program) program := by
  induction program using List.reverseRecOn with
  | nil =>
    refine ⟨?_, fun id row found => ⟨row, found, .inl rfl⟩⟩
    intro department member
    have none_ : department ∈ start.department := member
    rw [fresh] at none_
    cases none_
  | append_singleton program last ih =>
    rw [execute_snoc]
    exact ih.run last

end Signals

end BusinessOs.App.Sessions
