/- Source: app/agents/department.py, app/services/guardrails.py, app/agents/orchestrator.py
   digest: When the attempts of a department's workflow propose every item once. -/

import BusinessOs.App.DepartmentEffects
import BusinessOs.Lib.Execution

set_option autoImplicit false
set_option relaxedAutoImplicit false

namespace BusinessOs.App.DepartmentRetries

open BusinessOs.Lib BusinessOs.Lib.Execution BusinessOs.Lib.Json.Tree
open BusinessOs.App.Models BusinessOs.App.Workflows BusinessOs.App.Company
open BusinessOs.App.Sessions BusinessOs.App.Orchestrator BusinessOs.App.DepartmentAgent
open BusinessOs.App.DepartmentEffects

/-- An attempt at a workflow: the rows at its start, and what befalls it. -/
structure Attempt where
  before : CompanyDatabase
  row : Workflow
  plan : Plan

section Attempt

variable (str : Value → String) (attempt : Attempt)

def Attempt.behaviour : Behaviour :=
  DepartmentAgent.run str attempt.row.id attempt.row.payload attempt.plan attempt.before

def Attempt.after : CompanyDatabase :=
  runWorkflow (.load attempt.row) (attempt.behaviour str) attempt.plan.escalationId attempt.before

/-- The ids of the actions that the attempt has added, in the order of the items. -/
def Attempt.actions : List String :=
  rowsIn actionId? ((attempt.behaviour str).statements attempt.row.id)

/-- The attempt gets as far as adding an action: its department is active, its output has an item,
and no exception strikes before the first request's row. -/
def Attempt.reaches : Bool :=
  match entry attempt.row.payload "department_id" with
  | some (.string id) =>
    match attempt.before.department id with
    | none => false
    | some department =>
      let first := startAgents str department (attempt.before.agentsOf id) attempt.row.payload ++
        inspectUntrustedText attempt.row.id attempt.plan
      let begun := (first.flatMap (AgentStep.statements attempt.row.id)).length
      match generateDepartmentOutput str department attempt.row.payload
          attempt.plan.inspection with
      | none => false
      | some output =>
        decide (department.status = .active) && !(proposals str department output).isEmpty &&
          attempt.plan.cut.all fun at_ => decide (begun + 1 < at_.1)
  | _ => false

/-- The signals of the workflow's department. -/
def Attempt.signals (db : CompanyDatabase) : Option (List UInt64) :=
  match entry attempt.row.payload "department_id" with
  | some (.string id) => (db.department id).map fun department => counters department.revenueSignals
  | _ => none

def Attempt.raisesSignals : Bool :=
  decide (attempt.signals (attempt.after str) ≠ attempt.signals attempt.before)

/-- The generated ids are new: no action has one, and no approval names one. -/
structure Attempt.NewIds : Prop where
  keys : (attempt.before.externalActions.map ExternalAction.id ++ attempt.actions str).Nodup
  text : ∀ i, (attempt.plan.ids i).actionId ≠ ""
  unnamed : ∀ id ∈ attempt.actions str, some id ∉ attempt.before.humanApprovals.map named

end Attempt

section Law

variable (str : Value → String) (workflowId : String)

/-- What else happens between two attempts: other actions, and approvals of those. -/
structure Elsewhere (db before : CompanyDatabase) : Prop where
  actions : ∃ others, before.externalActions.map ExternalAction.id =
    db.externalActions.map ExternalAction.id ++ others
  approvals : ∃ others, before.humanApprovals.map named = db.humanApprovals.map named ++ others ∧
    ∀ action ∈ db.externalActions, some action.id ∉ others

theorem Elsewhere.refl (db : CompanyDatabase) : Elsewhere db db :=
  ⟨⟨[], (List.append_nil _).symm⟩, [], (List.append_nil _).symm, fun _ _ => List.not_mem_nil⟩

/-- An attempt at a department's workflow is made while the workflow is pending. -/
def Step (db : CompanyDatabase) (attempt : Attempt) (next : CompanyDatabase) : Prop :=
  Elsewhere db attempt.before ∧ attempt.before.workflow workflowId = some attempt.row ∧
    attempt.row.kind = "department_operation" ∧ attempt.row.status = .pending ∧
    attempt.NewIds str ∧ next = attempt.after str

/-- The ids of the actions for the item at one place. -/
def made (attempts : List Attempt) (item : ℕ) : List String :=
  attempts.flatMap fun attempt => (attempt.actions str)[item]?.toList

/-- Each item has at most one action and at most one approval, and the signals were raised at most
once. -/
structure ProposedOnce (attempts : List Attempt) (db : CompanyDatabase) : Prop where
  action : ∀ item, (db.externalActions.filter fun action =>
    action.id ∈ made str attempts item).length ≤ 1
  approval : ∀ item, (db.humanApprovals.filter fun approval =>
    named approval ∈ (made str attempts item).map some).length ≤ 1
  signals : attempts.countP (Attempt.raisesSignals str) ≤ 1

end Law

section Steps

variable (str : Value → String) {workflowId : String} {attempt : Attempt}
variable {db next : CompanyDatabase}

/-- The condition on an attempt's inputs says when it adds an action. -/
theorem actions_reaches : attempt.actions str ≠ [] ↔ attempt.reaches str = true := by
  unfold Attempt.actions Attempt.behaviour DepartmentAgent.run Attempt.reaches
  cases names : entry attempt.row.payload "department_id" with
  | none => simp [Behaviour.statements, rowsIn]
  | some value =>
    cases value with
    | string id =>
      dsimp only
      cases found : attempt.before.department id with
      | none => simp [Behaviour.statements, AgentStep.statements, rowsIn]
      | some department =>
        by_cases active : department.status = .active
        · simp only [active, ne_eq, not_true_eq_false, if_false]
          refine (loop_actions str department _).trans ?_
          cases generateDepartmentOutput str department attempt.row.payload
              attempt.plan.inspection with
          | none => simp
          | some output => cases attempt.plan.cut <;> simp
        · simp only [active, ne_eq, not_false_eq_true, if_true]
          obtain ⟨k, same⟩ := interrupt_statements attempt.row.id attempt.plan
            [.work (.getDepartment id) rfl] (.object [("department_id", .string department.id),
              ("status", .string department.status.value),
              ("message", .string "Department is not active; operating loop skipped.")])
          rw [same, rowsIn_take_nil rfl]
          cases generateDepartmentOutput str department attempt.row.payload
            attempt.plan.inspection <;> simp
    | _ => simp [Behaviour.statements, rowsIn]

theorem step_supported (step : Step str workflowId db attempt next) :
    (WorkflowCopy.load attempt.row).supported = true := by
  obtain ⟨_, _, kind, _⟩ := step
  simp [WorkflowCopy.supported, WorkflowCopy.load, kind]

/-- An attempt adds its actions, and approvals that name some of them in their order. -/
theorem step_rows (step : Step str workflowId db attempt next) :
    next.externalActions.map ExternalAction.id =
        attempt.before.externalActions.map ExternalAction.id ++ attempt.actions str ∧
      ∃ names : List (Option String),
        next.humanApprovals.map named = attempt.before.humanApprovals.map named ++ names ∧
        names.Sublist ((attempt.actions str).map some) := by
  have supported := step_supported str step
  obtain ⟨_, found, kind, pending, new, rfl⟩ := step
  refine ⟨?_, rowsIn named? ((attempt.behaviour str).statements attempt.row.id), ?_, ?_⟩
  · refine runWorkflow_grows (actions_grow ExternalAction.id fun _ _ => rfl) ?_ attempt.before _ _
      supported
    intro record
    cases record <;> rfl
  · refine runWorkflow_grows (approvals_grow.map named) ?_ attempt.before _ _ supported
    intro record
    cases record <;> rfl
  · have paired := shaped_paired str
      (run_shaped str attempt.row.id attempt.row.payload attempt.plan attempt.before) new.text
      ((attempt.behaviour str).statements attempt.row.id).length
    rwa [Attempt.behaviour, List.take_length] at paired

theorem closing_signals (left : WorkflowCopy) (escalationId : String)
    (outcome : Except String Value) :
    (closing left escalationId outcome).all keepsSignals = true := by
  unfold closing
  rw [List.all_append, List.all_flatMap]
  simp [keepsSignals]

/-- Signals that a call sets are set by its agent. -/
theorem program_signals {row : Workflow} {behaviour : Behaviour} {escalationId : String}
    {signals : Value} (supported : (WorkflowCopy.load row).supported = true)
    (set : .department (.revenueSignals signals) ∈ program (.load row) behaviour escalationId) :
    .department (.revenueSignals signals) ∈ behaviour.statements row.id := by
  rw [program_supported behaviour escalationId supported] at set
  rcases List.mem_append.mp set with before | behind
  · rcases List.mem_append.mp before with first | own
    · simp [opening] at first
    · exact own
  · have keeps := List.all_eq_true.mp (closing_signals _ _ _) _ behind
    cases keeps

/-- The signals stay in an attempt that adds no action. -/
theorem step_signals (step : Step str workflowId db attempt next)
    (none_ : attempt.actions str = []) :
    attempt.signals (attempt.after str) = attempt.signals attempt.before := by
  have supported := step_supported str step
  have law := signalsLaw_execute
    (rfl : (Session.start attempt.before (.load attempt.row)).department = none)
    (program (.load attempt.row) (attempt.behaviour str) attempt.plan.escalationId)
  have keys := execute_departments (Session.start attempt.before (.load attempt.row))
    (program (.load attempt.row) (attempt.behaviour str) attempt.plan.escalationId)
  unfold Attempt.signals
  split
  · rename_i id names
    cases found : (attempt.after str).department id with
    | none =>
      have missing : attempt.before.department id = none := by
        have absent := Table.get_eq_none.mp found
        exact Table.get_eq_none.mpr (keys ▸ absent)
      rw [missing]
    | some row =>
      obtain ⟨old, was, set⟩ := law.rows id row found
      have was : attempt.before.department id = some old := was
      rw [was, Option.map_some, Option.map_some]
      rcases set with same | assigned
      · rw [same]
      · have shaped := run_shaped str attempt.row.id attempt.row.payload attempt.plan
          attempt.before
        obtain ⟨other, department, output, sameId, present, generated, empty, value⟩ :=
          shaped_signals str shaped none_ (program_signals supported assigned)
        obtain rfl : id = other := by simpa [names] using sameId
        obtain rfl : old = department := by simpa [was] using present
        rw [value, metrics_counters str _ generated empty.symm]
  · rfl

end Steps

/-! What the attempts of a run leave. -/

section Runs

variable (str : Value → String) {workflowId : String} {start db next : CompanyDatabase}
variable {attempt : Attempt} {attempts : List Attempt} {ids part : List String}

/-- The ids of the workflow's actions stand in the table, and its approvals name each at most
once. -/
structure Held (db : CompanyDatabase) (ids : List String) : Prop where
  keys : (db.externalActions.map ExternalAction.id).Nodup
  actions : ids.Sublist (db.externalActions.map ExternalAction.id)
  approvals : ((db.humanApprovals.map named).filter (· ∈ ids.map some)).Sublist (ids.map some)

theorem held_start (keys : (start.externalActions.map ExternalAction.id).Nodup) :
    Held start [] := by
  refine ⟨keys, List.nil_sublist _, ?_⟩
  simp

/-- An attempt adds its own actions to those that are held. -/
theorem Held.step (held : Held db ids) (step : Step str workflowId db attempt next) :
    Held next (ids ++ attempt.actions str) := by
  obtain ⟨rows, names, approvals, own⟩ := step_rows str step
  obtain ⟨⟨⟨others, before⟩, otherNames, beforeNames, foreign⟩, _, _, _, new, _⟩ := step
  have keys : (next.externalActions.map ExternalAction.id).Nodup := by
    rw [rows]
    exact new.keys
  refine ⟨keys, ?_, ?_⟩
  · rw [rows, before]
    exact (held.actions.trans (List.sublist_append_left _ others)).append (List.Sublist.refl _)
  · -- The approvals that stood there name none of the new actions, the others none of the old.
    have stood : (attempt.before.humanApprovals.map named).filter
        (· ∈ (ids ++ attempt.actions str).map some) =
        (db.humanApprovals.map named).filter (· ∈ ids.map some) := by
      have fresh : ∀ name ∈ attempt.before.humanApprovals.map named,
          name ∈ (ids ++ attempt.actions str).map some ↔ name ∈ ids.map some := by
        intro name member
        rw [List.map_append, List.mem_append, or_iff_left]
        intro named
        obtain ⟨id, isNew, rfl⟩ := List.mem_map.mp named
        exact new.unnamed id isNew member
      have silent : otherNames.filter (· ∈ ids.map some) = [] := by
        rw [List.filter_eq_nil_iff]
        intro name member named
        obtain ⟨id, old, rfl⟩ := List.mem_map.mp (of_decide_eq_true named)
        obtain ⟨action, present, rfl⟩ := List.mem_map.mp (held.actions.subset old)
        exact foreign action present member
      rw [List.filter_congr fun name member => decide_eq_decide.mpr (fresh name member),
        beforeNames, List.filter_append, silent, List.append_nil]
    rw [approvals, List.filter_append, stood, List.map_append]
    exact held.approvals.append (List.filter_sublist.trans own)

theorem Held.run (held : Held start ids) (run : Run (Step str workflowId) start attempts db) :
    Held db (ids ++ attempts.flatMap (Attempt.actions str)) := by
  induction run generalizing ids with
  | nil _ =>
    rw [List.flatMap_nil, List.append_nil]
    exact held
  | cons first _ ih =>
    rw [List.flatMap_cons, ← List.append_assoc]
    exact ih (held.step str first)

/-- The members of a part of a list without repetitions, filtered out, are that part again. -/
theorem filter_perm {α : Type} [BEq α] [LawfulBEq α] {part rows : List α}
    (inside : part.Sublist rows) (distinct : rows.Nodup) :
    (rows.filter (· ∈ part)).Perm part := by
  rw [List.perm_ext_iff_of_nodup (distinct.filter _) (distinct.sublist inside)]
  intro a
  simp only [List.mem_filter, decide_eq_true_eq, and_iff_right_iff_imp]
  exact fun member => inside.subset member

theorem Held.count_actions (held : Held db ids) (inside : part.Sublist ids) :
    (db.externalActions.filter fun action => action.id ∈ part).length = part.length := by
  have column : (db.externalActions.filter fun action => action.id ∈ part).map ExternalAction.id =
      (db.externalActions.map ExternalAction.id).filter (· ∈ part) := by
    rw [List.filter_map]
    rfl
  rw [← List.length_map ExternalAction.id, column]
  exact (filter_perm (inside.trans held.actions) held.keys).length_eq

theorem Held.count_approvals (held : Held db ids) (inside : part.Sublist ids) :
    (db.humanApprovals.filter fun approval => named approval ∈ part.map some).length ≤
      part.length := by
  have column : (db.humanApprovals.filter fun approval => named approval ∈ part.map some).map
      named = (db.humanApprovals.map named).filter (· ∈ part.map some) := by
    rw [List.filter_map]
    rfl
  have within : (db.humanApprovals.map named).filter (· ∈ part.map some) =
      ((db.humanApprovals.map named).filter (· ∈ ids.map some)).filter (· ∈ part.map some) := by
    rw [List.filter_filter]
    apply List.filter_congr
    intro name _
    have subset : name ∈ part.map some → name ∈ ids.map some :=
      fun member => (inside.map some).subset member
    by_cases member : name ∈ part.map some
    · simp only [member, subset member, decide_true, Bool.and_self]
    · simp only [member, decide_false, Bool.false_and]
  have distinct : (ids.map some).Nodup :=
    (held.keys.sublist held.actions).map (Option.some_injective _)
  rw [← List.length_map named, column, within]
  calc _ ≤ ((ids.map some).filter (· ∈ part.map some)).length :=
        (held.approvals.filter _).length_le
    _ = (part.map some).length := (filter_perm (inside.map some) distinct).length_eq
    _ = part.length := List.length_map _

/-- Every attempt that adds an action adds one for the first item, and at most one for another. -/
theorem made_length (attempts : List Attempt) (item : ℕ) :
    (made str attempts item).length ≤ attempts.countP (Attempt.reaches str) ∧
      (item = 0 → (made str attempts item).length = attempts.countP (Attempt.reaches str)) := by
  induction attempts with
  | nil => exact ⟨Nat.le_refl _, fun _ => rfl⟩
  | cons attempt attempts ih =>
    obtain ⟨most, first⟩ := ih
    have split : (made str (attempt :: attempts) item).length =
        ((attempt.actions str)[item]?.toList).length + (made str attempts item).length :=
      List.length_append
    have adds : attempt.actions str ≠ [] ↔ attempt.reaches str = true := actions_reaches str
    rw [split, List.countP_cons]
    cases actions : attempt.actions str with
    | nil =>
      have silent : attempt.reaches str = false := by simpa [actions] using adds
      rw [silent]
      refine ⟨by simpa using most, fun zero => ?_⟩
      simpa using first zero
    | cons id rest =>
      have reaches : attempt.reaches str = true := by simpa [actions] using adds
      have one : ((id :: rest)[item]?.toList).length ≤ 1 := by
        cases (id :: rest)[item]? <;> simp
      rw [reaches, if_pos rfl]
      refine ⟨by omega, ?_⟩
      intro zero
      have there : ((id :: rest)[item]?.toList).length = 1 := by
        rw [zero]
        rfl
      rw [there, first zero, Nat.add_comm]

theorem made_sublist (attempts : List Attempt) (item : ℕ) :
    (made str attempts item).Sublist (attempts.flatMap (Attempt.actions str)) := by
  induction attempts with
  | nil => exact List.Sublist.refl _
  | cons attempt attempts ih =>
    unfold made at ih ⊢
    rw [List.flatMap_cons, List.flatMap_cons]
    refine List.Sublist.append ?_ ih
    cases present : (attempt.actions str)[item]? with
    | none => exact List.nil_sublist _
    | some id => exact List.singleton_sublist.mpr (List.mem_of_getElem? present)

/-- The attempts propose every item at most once exactly when at most one of them comes as far as
its first action. -/
theorem proposed_once (run : Run (Step str workflowId) start attempts db)
    (keys : (start.externalActions.map ExternalAction.id).Nodup) :
    ProposedOnce str attempts db ↔ attempts.countP (Attempt.reaches str) ≤ 1 := by
  have held := (held_start keys).run str run
  rw [List.nil_append] at held
  constructor
  · intro once
    rw [← (made_length str attempts 0).2 rfl,
      ← held.count_actions (made_sublist str attempts 0)]
    exact once.action 0
  · intro few
    refine ⟨?_, ?_, ?_⟩
    · intro item
      rw [held.count_actions (made_sublist str attempts item)]
      exact (made_length str attempts item).1.trans few
    · intro item
      exact (held.count_approvals (made_sublist str attempts item)).trans
        ((made_length str attempts item).1.trans few)
    · refine (List.countP_mono_left ?_).trans few
      intro attempt member raises
      obtain ⟨_, _, step⟩ := run.exists_step member
      rw [← actions_reaches]
      intro none_
      have changed : attempt.signals (attempt.after str) ≠ attempt.signals attempt.before := by
        simpa [Attempt.raisesSignals] using raises
      exact changed (step_signals str step none_)

end Runs

section Sample

def sampleText : Value → String := fun _ => "None"

def sampleDepartment : Department where
  id := "d"
  name := "Content"
  departmentType := "content"
  status := .active
  healthScore := 1
  revenueSignals := .object []
  lastOutput := .null

def sampleRow : Workflow :=
  .new "w" "department_operation" "Daily loop"
    (.object [("department_id", .string "d"), ("channels", .array [.string "x"])]) "api" 0

def sampleStart : CompanyDatabase where
  toDatabase := { Database.empty with workflows := [sampleRow] }
  departments := [sampleDepartment]
  agentInstances := []
  departmentSchedules := []

/-- An attempt on rows that hold the workflow, with one gated request. -/
def sampleAttempt (db : CompanyDatabase) (actionId approvalId : String)
    (cut : Option (ℕ × String)) : Attempt where
  before := db
  row := (db.workflow "w").getD sampleRow
  plan :=
    { inspection := .object []
      eventId := "s"
      classify := fun _ => ⟨"high", true, ["Outbound or public communication."]⟩
      ids := fun _ => ⟨actionId, approvalId, "p", "h"⟩
      escalationId := "e"
      cut }

/-- The process that inspects the text fails. -/
def sampleEarly : Attempt := sampleAttempt sampleStart "x1" "a1" (some (3, "rust core failed"))

/-- The process that computes the metrics fails. -/
def sampleLate : Attempt := sampleAttempt sampleStart "x1" "a1" (some (24, "rust core failed"))

def sampleRetry (first : Attempt) : Attempt :=
  sampleAttempt (first.after sampleText) "x2" "a2" none

theorem sample_new {db : CompanyDatabase} {actionId approvalId : String}
    {cut : Option (ℕ × String)} (text : actionId ≠ "")
    (keys : (db.externalActions.map ExternalAction.id ++
      (sampleAttempt db actionId approvalId cut).actions sampleText).Nodup)
    (unnamed : ∀ id ∈ (sampleAttempt db actionId approvalId cut).actions sampleText,
      some id ∉ db.humanApprovals.map named) :
    (sampleAttempt db actionId approvalId cut).NewIds sampleText :=
  ⟨keys, fun _ => text, unnamed⟩

/-- The retry of an attempt that stopped early adds the only action. -/
theorem proposed_once_sample :
    ProposedOnce sampleText [sampleEarly, sampleRetry sampleEarly]
      ((sampleRetry sampleEarly).after sampleText) := by
  have first : Step sampleText "w" sampleStart sampleEarly (sampleEarly.after sampleText) :=
    ⟨.refl _, rfl, rfl, rfl, sample_new (by decide) (by decide) (by decide), rfl⟩
  have second : Step sampleText "w" (sampleEarly.after sampleText) (sampleRetry sampleEarly)
      ((sampleRetry sampleEarly).after sampleText) :=
    ⟨.refl _, rfl, rfl, rfl, sample_new (by decide) (by decide) (by decide), rfl⟩
  exact (proposed_once sampleText (.cons first (.cons second (.nil _))) List.nodup_nil).mpr
    (by decide)

/-- An attempt that fails behind its requests is made again, with the same item. -/
theorem proposed_twice : ¬ ∀ (str : Value → String) (workflowId : String)
    (start db : CompanyDatabase) (attempts : List Attempt),
    Run (Step str workflowId) start attempts db →
    (start.externalActions.map ExternalAction.id).Nodup → ProposedOnce str attempts db := by
  intro law
  have first : Step sampleText "w" sampleStart sampleLate (sampleLate.after sampleText) :=
    ⟨.refl _, rfl, rfl, rfl, sample_new (by decide) (by decide) (by decide), rfl⟩
  have second : Step sampleText "w" (sampleLate.after sampleText) (sampleRetry sampleLate)
      ((sampleRetry sampleLate).after sampleText) :=
    ⟨.refl _, rfl, rfl, rfl, sample_new (by decide) (by decide) (by decide), rfl⟩
  have once := law _ _ _ _ _ (.cons first (.cons second (.nil _))) List.nodup_nil
  have both : (((sampleRetry sampleLate).after sampleText).externalActions.filter fun action =>
      action.id ∈ made sampleText [sampleLate, sampleRetry sampleLate] 0).length = 2 := by decide
  have most := once.action 0
  rw [both] at most
  contradiction

end Sample

end BusinessOs.App.DepartmentRetries
