/- Source: app/services/scheduler.py, app/agents/orchestrator.py, docs/RUNBOOK.md
   digest: Processors whose passes never overlap start a workflow's agent at most once at a time. -/

import BusinessOs.App.Scheduler
import Mathlib.Data.Fintype.Basic

set_option autoImplicit false
set_option relaxedAutoImplicit false

namespace BusinessOs.App.SchedulerRuns

open BusinessOs.Lib BusinessOs.Lib.Execution BusinessOs.Lib.Interleaving BusinessOs.Lib.UnitOfWork
open BusinessOs.Lib.Json.Tree BusinessOs.App.Models BusinessOs.App.Workflows
open BusinessOs.App.Scheduler

variable {P : Type} [DecidableEq P]

/-- Execution of pending workflows, at the end `s` of a run `es` of the steps `R` from `s₀`. -/
structure AtMostOnce (R : World P → Event P → World P → Prop) (s₀ : World P)
    (es : List (Event P)) (s : World P) : Prop where
  /-- A start begins on a row that is committed as pending, with no other processor at it. -/
  start : ∀ p t, R s (.markRunning p) t → ∃ workflow rest row,
    s.phase p = .looping (workflow :: rest) ∧
    s.db.workflow workflow.id = some row ∧ row.status = .pending ∧
    ∀ q, q ≠ p → (s.phase q).inside ≠ some workflow.id
  /-- No other processor has come in when the agent is called. -/
  agent : ∀ p id t, R s (.startAgent p id) t → ∀ q, q ≠ p → (s.phase q).inside ≠ some id
  /-- A completed or failed workflow is never run again. -/
  closed : ∀ id row, s.db.workflow id = some row →
    row.status = .completed ∨ row.status = .failed →
    ∀ fs t, Run R s fs t → starts fs id = 0
  bounded : ∀ id row, s.db.workflow id = some row →
    attempts s₀ id + starts es id ≤ row.maxAttempts

/-- The steps of `step`, one constructor for each kind of event. -/
inductive Cause (s : World P) : Event P → World P → Prop
  | select {p : P} (at_ : s.phase p = .idle) : Cause s (.select p)
      (s.move p s.db (.looping ((pendingWorkflows s.db.workflows).map WorkflowCopy.load)))
  | unsupported {p : P} {workflow : WorkflowCopy} {rest : List WorkflowCopy}
      (at_ : s.phase p = .looping (workflow :: rest)) :
      Cause s (.unsupported p) (s.move p s.db (.looping rest))
  | markRunning {p : P} {workflow : WorkflowCopy} {rest : List WorkflowCopy}
      (at_ : s.phase p = .looping (workflow :: rest)) (supported : workflow.supported = true) :
      Cause s (.markRunning p)
      (s.move p ((markRunning workflow).commit s.db)
        (.marked (markRunning workflow).committed rest))
  | startAgent {p : P} {workflow : WorkflowCopy} {rest : List WorkflowCopy}
      (at_ : s.phase p = .marked workflow rest) : Cause s (.startAgent p workflow.id)
      (s.move p ((startedRecord workflow).commit s.db) (.running workflow rest))
  | waitForHuman {p : P} {workflow : WorkflowCopy} {rest : List WorkflowCopy}
      (at_ : s.phase p = .running workflow rest) : Cause s (.waitForHuman p)
      (s.move p ((waitForHuman workflow).commit s.db)
        (.running (waitForHuman workflow).committed rest))
  | finish {p : P} {workflow : WorkflowCopy} {rest : List WorkflowCopy}
      (at_ : s.phase p = .running workflow rest) (outcome : Except String Value)
      (escalationId : String) : Cause s (.finish p outcome escalationId)
      (s.move p ((finish workflow outcome).commit s.db)
        (.finishing (finish workflow outcome).committed
          (finishRecords workflow escalationId outcome) rest))
  | record {p : P} {workflow : WorkflowCopy} {record : Record} {records : List Record}
      {rest : List WorkflowCopy}
      (at_ : s.phase p = .finishing workflow (record :: records) rest) : Cause s (.record p)
      (s.move p (record.commit s.db) (.finishing workflow records rest))
  | next {p : P} {workflow : WorkflowCopy} {rest : List WorkflowCopy}
      (at_ : s.phase p = .finishing workflow [] rest) :
      Cause s (.next p) (s.move p s.db (.looping rest))
  | close {p : P} (at_ : s.phase p = .looping []) : Cause s (.close p) (s.move p s.db .idle)
  | create {id kind title source : String} {payload : Value} {createdAt : ℤ} {db : Database}
      (new : id ∉ s.db.workflows.map Workflow.id)
      (rows : db.workflows =
        s.db.workflows ++ [Workflow.new id kind title payload source createdAt]) :
      Cause s (.create id kind title payload source createdAt) { s with db }

variable {s t : World P} {e : Event P}

theorem step_cause (h : step s e = some t) : Cause s e t := by
  cases e with
  | select p =>
    cases at_ : s.phase p <;> simp only [step, at_, Option.some.injEq, reduceCtorEq] at h
    subst h
    exact .select at_
  | unsupported p =>
    cases at_ : s.phase p with
    | looping rest =>
      cases rest with
      | nil => simp [step, at_] at h
      | cons workflow rest =>
        cases kind : workflow.supported <;> simp [step, at_, kind] at h
        subst h
        exact .unsupported at_
    | _ => simp [step, at_] at h
  | markRunning p =>
    cases at_ : s.phase p with
    | looping rest =>
      cases rest with
      | nil => simp [step, at_] at h
      | cons workflow rest =>
        cases kind : workflow.supported <;> simp [step, at_, kind] at h
        subst h
        exact .markRunning at_ kind
    | _ => simp [step, at_] at h
  | startAgent p id =>
    cases at_ : s.phase p with
    | marked workflow rest =>
      by_cases own : workflow.id = id
      · subst own
        simp only [step, at_, if_true, Option.some.injEq] at h
        subst h
        exact .startAgent at_
      · simp [step, at_, own] at h
    | _ => simp [step, at_] at h
  | waitForHuman p =>
    cases at_ : s.phase p <;> simp only [step, at_, Option.some.injEq, reduceCtorEq] at h
    subst h
    exact .waitForHuman at_
  | finish p outcome escalationId =>
    cases at_ : s.phase p <;> simp only [step, at_, Option.some.injEq, reduceCtorEq] at h
    subst h
    exact .finish at_ outcome escalationId
  | record p =>
    cases at_ : s.phase p with
    | finishing workflow records rest =>
      cases records <;> simp only [step, at_, Option.some.injEq, reduceCtorEq] at h
      subst h
      exact .record at_
    | _ => simp [step, at_] at h
  | next p =>
    cases at_ : s.phase p with
    | finishing workflow records rest =>
      cases records <;> simp only [step, at_, Option.some.injEq, reduceCtorEq] at h
      subst h
      exact .next at_
    | _ => simp [step, at_] at h
  | close p =>
    cases at_ : s.phase p with
    | looping rest =>
      cases rest <;> simp only [step, at_, Option.some.injEq, reduceCtorEq] at h
      subst h
      exact .close at_
    | _ => simp [step, at_] at h
  | create id kind title payload source createdAt =>
    by_cases used : id ∈ s.db.workflows.map Workflow.id
    · simp only [step, used, if_true, reduceCtorEq] at h
    · simp only [step, used, if_false, Option.some.injEq] at h
      subst h
      exact .create used rfl

/-- The copy that `run_workflow` has still to write with. -/
def active : Phase → Option WorkflowCopy
  | .marked workflow _ | .running workflow _ => some workflow
  | .idle | .looping _ | .finishing _ _ _ => none

/-- A copy that agrees with its committed row, of a status in `allowed`. -/
def Agrees (db : Database) (allowed : List WorkflowStatus) (workflow : WorkflowCopy) : Prop :=
  ∃ row, db.workflow workflow.id = some row ∧ row.status ∈ allowed ∧ workflow = .load row

/-- A processor's copies are of distinct workflows, and none of them is stale. -/
structure Good (db : Database) (phase : Phase) : Prop where
  distinct : phase.held.Nodup
  rest : ∀ workflow ∈ phase.rest, Agrees db [.pending] workflow
  active : ∀ workflow, active phase = some workflow →
    Agrees db [.running, .waitingForHuman] workflow

/-- A pending workflow has an attempt left. -/
def RowLaw (row : Workflow) : Prop :=
  row.attempts ≤ row.maxAttempts ∧ (row.status = .pending → row.attempts < row.maxAttempts)

def Holds (phase : Phase) (id : String) : Prop := id ∈ phase.held

structure Inv (s : World P) : Prop where
  keys : (s.db.workflows.map Workflow.id).Nodup
  rows : ∀ row ∈ s.db.workflows, RowLaw row
  good : ∀ p, Good s.db (s.phase p)
  apart : Apart Holds s

omit [DecidableEq P] in
theorem initial_inv (initial : Initial s) : Inv s := by
  refine ⟨initial.keys, initial.attempts, fun p => ?_, fun p q _ id held => ?_⟩
  · rw [initial.idle p]
    exact ⟨.nil, by simp [Phase.rest, Phase.loop], by simp [active]⟩
  · rw [initial.idle p] at held
    simp [Holds, Phase.held, Phase.inside, Phase.rest, Phase.loop] at held

theorem inside_held {phase : Phase} {id : String} (inside : phase.inside = some id) :
    id ∈ phase.held := by
  apply List.mem_append_left
  rw [inside]
  exact List.mem_singleton_self id

theorem rest_held {phase : Phase} {workflow : WorkflowCopy} (member : workflow ∈ phase.rest) :
    workflow.id ∈ phase.held :=
  List.mem_append_right _ (List.mem_map_of_mem member)

theorem active_held {phase : Phase} {workflow : WorkflowCopy}
    (at_ : active phase = some workflow) : workflow.id ∈ phase.held := by
  apply inside_held
  cases phase <;> simp only [active, reduceCtorEq, Option.some.injEq] at at_ <;> subst at_ <;> rfl

/-- Rows that a processor does not hold may change under it. -/
theorem good_framed : Framed Database.workflow Holds Good := by
  intro db db' phase same good
  refine ⟨good.distinct, fun workflow member => ?_, fun workflow at_ => ?_⟩
  · obtain ⟨row, found, status, copy⟩ := good.rest workflow member
    exact ⟨row, (same _ (rest_held member)).trans found, status, copy⟩
  · obtain ⟨row, found, status, copy⟩ := good.active workflow at_
    exact ⟨row, (same _ (active_held at_)).trans found, status, copy⟩

section Move

variable {p : P} {db : Database} {phase : Phase}

/-- A processor moves on with workflows it held already, changing only rows that it held. -/
theorem Inv.move (inv : Inv s) (held : ∀ id ∈ phase.held, id ∈ (s.phase p).held)
    (good : Good db phase)
    (keys : db.workflows.map Workflow.id = s.db.workflows.map Workflow.id)
    (rows : ∀ row ∈ db.workflows, RowLaw row)
    (others : ∀ id, id ∉ (s.phase p).held → db.workflow id = s.db.workflow id) :
    Inv (s.move p db phase) := by
  refine ⟨?_, rows, ?_, ?_⟩
  · show (db.workflows.map Workflow.id).Nodup
    rw [keys]
    exact inv.keys
  · exact inv.apart.laws good_framed good inv.good others
  · exact inv.apart.move (inv.apart.free held)

/-- A move that leaves the table of workflows alone. -/
theorem Inv.move_quiet (inv : Inv s) (same : db.workflows = s.db.workflows)
    (inside : ∀ id, phase.inside = some id → (s.phase p).inside = some id)
    (sub : phase.rest.Sublist (s.phase p).rest)
    (active_sub : ∀ workflow, active phase = some workflow →
      active (s.phase p) = some workflow) :
    Inv (s.move p db phase) := by
  have lookup : ∀ id, db.workflow id = s.db.workflow id := by
    intro id
    rw [Database.workflow, same]
    rfl
  have held : phase.held.Sublist (s.phase p).held := by
    refine List.Sublist.append ?_ (sub.map _)
    cases at_ : phase.inside with
    | none => exact List.nil_sublist _
    | some id => rw [inside id at_]
  have here : Good s.db phase :=
    ⟨(inv.good p).distinct.sublist held, fun w member => (inv.good p).rest w (sub.subset member),
      fun w at_ => (inv.good p).active w (active_sub w at_)⟩
  refine inv.move (fun id member => held.subset member)
    (good_framed _ _ _ (fun id _ => lookup id) here) ?_ ?_
    fun id _ => lookup id
  · rw [same]
  · rw [same]
    exact inv.rows

end Move

section Commit

variable {db : Database} {workflow : WorkflowCopy} {row : Workflow} {id : String}

theorem commit_keys :
    (workflow.commit db).workflows.map Workflow.id = db.workflows.map Workflow.id :=
  Table.keys_update fun _ => rfl

theorem commit_self (found : db.workflow workflow.id = some row) :
    (workflow.commit db).workflow workflow.id = some (workflow.flush row) := by
  show Table.get _ (Table.update _ _ _ _) _ = _
  rw [Table.get_update_self flush_id]
  exact congrArg (Option.map workflow.flush) found

theorem commit_other (workflow : WorkflowCopy) (other : id ≠ workflow.id) :
    (workflow.commit db).workflow id = db.workflow id :=
  Table.get_update_of_ne (fun _ => rfl) other

theorem commit_rows (keys : (db.workflows.map Workflow.id).Nodup)
    (rows : ∀ r ∈ db.workflows, RowLaw r) (found : db.workflow workflow.id = some row)
    (law : RowLaw (workflow.flush row)) : ∀ r ∈ (workflow.commit db).workflows, RowLaw r := by
  intro r member
  rcases Table.mem_update member with ⟨old, _⟩ | ⟨s, inside, own, rfl⟩
  · exact rows r old
  · have same : some s = some row := (Table.get_of_mem keys inside).symm.trans (own ▸ found)
    cases same
    exact law

end Commit

/-- A processor commits a change of the workflow at its head, read from the row as it stands. -/
theorem Inv.write (inv : Inv s) {p : P} {phase : Phase} (workflow : WorkflowCopy) {row : Workflow}
    (found : s.db.workflow workflow.id = some row) (read : ReadFrom workflow row)
    (law : RowLaw (workflow.flush row))
    (before : (s.phase p).held = workflow.id :: phase.rest.map WorkflowCopy.id)
    (inside : phase.inside = some workflow.id)
    (rest_sub : ∀ w ∈ phase.rest, w ∈ (s.phase p).rest)
    (active_status : ∀ w, active phase = some w → w = workflow.committed ∧
      workflow.status.current ∈ [WorkflowStatus.running, .waitingForHuman]) :
    Inv (s.move p (workflow.commit s.db) phase) := by
  have after : phase.held = workflow.id :: phase.rest.map WorkflowCopy.id := by
    rw [Phase.held, inside]
    rfl
  have distinct := (inv.good p).distinct
  rw [before, List.nodup_cons] at distinct
  have good : Good (workflow.commit s.db) phase := by
    refine ⟨?_, fun w member => ?_, fun w at_ => ?_⟩
    · rw [after, List.nodup_cons]
      exact distinct
    · have other : w.id ≠ workflow.id := fun same =>
        distinct.1 (same ▸ List.mem_map_of_mem member)
      obtain ⟨r, at_, status, copy⟩ := (inv.good p).rest w (rest_sub w member)
      exact ⟨r, (commit_other workflow other).trans at_, status, copy⟩
    · obtain ⟨rfl, status⟩ := active_status w at_
      refine ⟨workflow.flush row, commit_self found, ?_, read.committed⟩
      rw [read.flush_status]
      exact status
  refine inv.move (fun id member => ?_) good commit_keys
    (commit_rows inv.keys inv.rows found law) fun id outside => ?_
  · rw [before, ← after]
    exact member
  · apply commit_other
    rintro rfl
    exact outside (before ▸ List.mem_cons_self)

/-- A selection that overlaps with no other pass. -/
theorem Inv.select (inv : Inv s) {p : P} (guard : NoOverlap s (.select p)) :
    Inv (s.move p s.db
      (.looping ((pendingWorkflows s.db.workflows).map WorkflowCopy.load))) := by
  have ids : ((pendingWorkflows s.db.workflows).map WorkflowCopy.load).map WorkflowCopy.id =
      (pendingWorkflows s.db.workflows).map Workflow.id := by
    rw [List.map_map]
    rfl
  have held : (Phase.looping
      ((pendingWorkflows s.db.workflows).map WorkflowCopy.load)).held.Sublist
      ((pendingWorkflows s.db.workflows).map Workflow.id) := by
    rw [← ids]
    exact List.filter_sublist.map _
  have good : Good s.db
      (.looping ((pendingWorkflows s.db.workflows).map WorkflowCopy.load)) := by
    refine ⟨(pendingWorkflows_nodup inv.keys).sublist held, fun workflow member => ?_,
      by simp [active]⟩
    obtain ⟨row, selected, rfl⟩ := List.mem_map.mp (List.mem_filter.mp member).1
    obtain ⟨inside, pending⟩ := pendingWorkflows_mem selected
    exact ⟨row, Table.get_of_mem inv.keys inside, by simp [pending], rfl⟩
  have free : ∀ id ∈ (Phase.looping
      ((pendingWorkflows s.db.workflows).map WorkflowCopy.load)).held,
      ∀ q, q ≠ p → id ∉ (s.phase q).held := by
    intro id member q other
    obtain ⟨row, selected, rfl⟩ := List.mem_map.mp (held.subset member)
    exact guard row selected q other
  exact ⟨inv.keys, inv.rows, forall_move good fun q _ => inv.good q, inv.apart.move free⟩

omit [DecidableEq P] in
theorem Inv.create (inv : Inv s) {id kind title source : String} {payload : Value}
    {createdAt : ℤ} {db : Database} (new : id ∉ s.db.workflows.map Workflow.id)
    (rows : db.workflows =
      s.db.workflows ++ [Workflow.new id kind title payload source createdAt]) :
    Inv { s with db } := by
  have kept : ∀ i row, s.db.workflow i = some row → db.workflow i = s.db.workflow i := by
    intro i row found
    show Table.get _ db.workflows _ = _
    rw [rows, Table.get_append]
    show (s.db.workflow i).or _ = _
    rw [found, Option.some_or]
  refine ⟨?_, ?_, fun p => ⟨(inv.good p).distinct, ?_, ?_⟩, inv.apart⟩
  · rw [rows]
    exact Table.nodup_append inv.keys new
  · intro row member
    rw [rows] at member
    rcases List.mem_append.mp member with old | last
    · exact inv.rows row old
    · obtain rfl := List.mem_singleton.mp last
      exact ⟨by simp [Workflow.new], fun _ => by simp [Workflow.new]⟩
  · intro workflow member
    obtain ⟨row, found, status, copy⟩ := (inv.good p).rest workflow member
    exact ⟨row, (kept _ row found).trans found, status, copy⟩
  · intro workflow at_
    obtain ⟨row, found, status, copy⟩ := (inv.good p).active workflow at_
    exact ⟨row, (kept _ row found).trans found, status, copy⟩

omit [DecidableEq P] in
/-- The head of the loop is a committed pending row. -/
theorem Inv.head (inv : Inv s) {p : P} {workflow : WorkflowCopy} {rest : List WorkflowCopy}
    (at_ : s.phase p = .looping (workflow :: rest)) (supported : workflow.supported = true) :
    Agrees s.db [.pending] workflow := by
  apply (inv.good p).rest
  rw [at_]
  exact List.mem_filter.mpr ⟨List.mem_cons_self, supported⟩

omit [DecidableEq P] in
theorem Inv.current (inv : Inv s) {p : P} {workflow : WorkflowCopy}
    (at_ : active (s.phase p) = some workflow) :
    Agrees s.db [.running, .waitingForHuman] workflow :=
  (inv.good p).active workflow at_

omit [DecidableEq P] in
theorem Agrees.law {allowed : List WorkflowStatus} {workflow : WorkflowCopy}
    (inv : Inv s) (agrees : Agrees s.db allowed workflow) :
    ∃ row, s.db.workflow workflow.id = some row ∧ row.status ∈ allowed ∧
      workflow = .load row ∧ RowLaw row := by
  obtain ⟨row, found, status, copy⟩ := agrees
  exact ⟨row, found, status, copy, inv.rows row (Table.get_mem found).1⟩

/-- A processor marks the supported workflow at the head of its loop. -/
theorem Inv.markRunning (inv : Inv s) {p : P} {workflow : WorkflowCopy} {rest : List WorkflowCopy}
    (at_ : s.phase p = .looping (workflow :: rest)) (supported : workflow.supported = true) :
    Inv (s.move p ((markRunning workflow).commit s.db)
      (.marked (markRunning workflow).committed rest)) := by
  obtain ⟨row, found, status, rfl, law⟩ := (inv.head at_ supported).law inv
  have pending : row.status = .pending := by simpa using status
  have room := law.2 pending
  have read : ReadFrom (Workflows.markRunning (.load row)) row := load_readFrom.markRunning
  have loop : (s.phase p).rest = .load row :: rest.filter WorkflowCopy.supported := by
    rw [at_]
    exact List.filter_cons_of_pos supported
  refine inv.write (Workflows.markRunning (.load row)) found read ⟨?_, fun stays => ?_⟩ ?_ rfl
    ?_ ?_
  · rw [read.flush_attempts]
    show row.attempts + 1 ≤ row.maxAttempts
    omega
  · rw [read.flush_status] at stays
    cases stays
  · rw [Phase.held, loop, at_]
    rfl
  · intro w member
    rw [loop]
    exact List.mem_cons_of_mem _ member
  · intro w head
    obtain rfl := Option.some.inj head
    exact ⟨rfl, List.mem_cons_self⟩

/-- A processor inside `agent.run` commits a change of its workflow. -/
theorem Inv.running (inv : Inv s) {p : P} {workflow : WorkflowCopy} {rest : List WorkflowCopy}
    (at_ : s.phase p = .running workflow rest) (change : WorkflowCopy → WorkflowCopy)
    (read : ∀ row, ReadFrom (change (.load row)) row)
    (law : ∀ row, RowLaw row → RowLaw ((change (.load row)).flush row))
    {phase : Phase} (inside : phase.inside = some workflow.id)
    (loop : phase.rest = (s.phase p).rest)
    (active_status : ∀ w, active phase = some w → w = (change workflow).committed ∧
      (change workflow).status.current ∈ [WorkflowStatus.running, .waitingForHuman]) :
    Inv (s.move p ((change workflow).commit s.db) phase) := by
  obtain ⟨row, found, _, rfl, lawful⟩ := (inv.current (by rw [at_]; rfl)).law inv
  have same : (change (.load row)).id = row.id := (read row).id
  refine inv.write (change (.load row)) (same ▸ found) (read row) (law row lawful) ?_
    (same ▸ inside) (fun w member => loop ▸ member) active_status
  rw [loop, at_, same]
  rfl

theorem Inv.waitForHuman (inv : Inv s) {p : P} {workflow : WorkflowCopy}
    {rest : List WorkflowCopy} (at_ : s.phase p = .running workflow rest) :
    Inv (s.move p ((waitForHuman workflow).commit s.db)
      (.running (waitForHuman workflow).committed rest)) := by
  refine inv.running at_ Workflows.waitForHuman (fun _ => load_readFrom.waitForHuman)
    (fun row law => ⟨?_, ?_⟩) rfl ?_ ?_
  · rw [load_readFrom.waitForHuman.flush_attempts]
    exact law.1
  · rw [load_readFrom.waitForHuman.flush_status]
    intro stays
    cases stays
  · rw [at_]
    rfl
  · intro w head
    obtain rfl := Option.some.inj head
    exact ⟨rfl, List.mem_cons_of_mem _ List.mem_cons_self⟩

theorem Inv.finish (inv : Inv s) {p : P} {workflow : WorkflowCopy} {rest : List WorkflowCopy}
    (at_ : s.phase p = .running workflow rest) (outcome : Except String Value)
    (records : List Record) : Inv (s.move p ((finish workflow outcome).commit s.db)
      (.finishing (finish workflow outcome).committed records rest)) := by
  have read (row : Workflow) : ReadFrom (Workflows.finish (.load row) outcome) row :=
    load_readFrom.finish outcome
  refine inv.running at_ (fun w => Workflows.finish w outcome) read
    (fun row law => ⟨?_, ?_⟩) ?_ ?_ ?_
  · rw [(read row).flush_attempts, finish_attempts]
    exact law.1
  · rw [(read row).flush_status, (read row).flush_attempts, finish_attempts]
    exact finish_pending
  · exact congrArg some (finish_id outcome)
  · rw [at_]
    rfl
  · intro w head
    cases head

theorem inv_step (inv : Inv s) (guard : NoOverlap s e) (cause : Cause s e t) : Inv t := by
  cases cause with
  | select at_ => exact inv.select guard
  | unsupported at_ =>
    refine inv.move_quiet rfl (by simp [Phase.inside]) ?_ (by simp [active])
    rw [at_]
    exact (List.sublist_cons_self _ _).filter _
  | markRunning at_ supported => exact inv.markRunning at_ supported
  | startAgent at_ =>
    refine inv.move_quiet rfl ?_ ?_ ?_
    · intro id inside
      rw [at_]
      exact inside
    · rw [at_]
      exact List.Sublist.refl _
    · intro w head
      rw [at_]
      exact head
  | waitForHuman at_ => exact inv.waitForHuman at_
  | finish at_ outcome escalationId => exact inv.finish at_ outcome _
  | record at_ =>
    rename_i record _ _
    refine inv.move_quiet (by cases record <;> rfl) ?_ ?_ (by simp [active])
    · intro id inside
      rw [at_]
      exact inside
    · rw [at_]
      exact List.Sublist.refl _
  | next at_ =>
    refine inv.move_quiet rfl (by simp [Phase.inside]) ?_ (by simp [active])
    rw [at_]
    exact List.Sublist.refl _
  | close at_ =>
    exact inv.move_quiet rfl (by simp [Phase.inside]) (List.nil_sublist _) (by simp [active])
  | create new rows => exact inv.create new rows

section Attempts

variable {id : String} {workflow : WorkflowCopy} {row : Workflow}

omit [DecidableEq P] in
theorem attempts_found (found : s.db.workflow id = some row) : attempts s id = row.attempts := by
  rw [attempts, found]

theorem attempts_same {p : P} {db : Database} {phase : Phase}
    (same : db.workflow id = s.db.workflow id) :
    attempts (s.move p db phase) id = attempts s id := by
  unfold attempts
  rw [show (s.move p db phase).db.workflow id = s.db.workflow id from same]

/-- A commit sets the attempts of its own row to those of the copy. -/
theorem attempts_commit (workflow : WorkflowCopy) (found : s.db.workflow workflow.id = some row)
    (read : ReadFrom workflow row) (p : P) (phase : Phase) :
    attempts (s.move p (workflow.commit s.db) phase) id =
      if id = workflow.id then workflow.attempts.current else attempts s id := by
  by_cases own : id = workflow.id
  · subst own
    rw [if_pos rfl, ← read.flush_attempts]
    exact attempts_found (commit_self found)
  · rw [if_neg own]
    exact attempts_same (commit_other workflow own)

/-- A commit of a copy with the row's attempts changes no attempts. -/
theorem attempts_commit_same (workflow : WorkflowCopy)
    (found : s.db.workflow workflow.id = some row)
    (read : ReadFrom workflow row) (same : workflow.attempts.current = row.attempts) (p : P)
    (phase : Phase) : attempts (s.move p (workflow.commit s.db) phase) id = attempts s id := by
  rw [attempts_commit workflow found read]
  by_cases own : id = workflow.id
  · rw [if_pos own, same, own, attempts_found found]
  · exact if_neg own

omit [DecidableEq P] in
/-- A new row starts at the attempts that an absent one counts as. -/
theorem attempts_create {new kind title source : String} {payload : Value} {createdAt : ℤ}
    {db : Database} (rows : db.workflows =
      s.db.workflows ++ [Workflow.new new kind title payload source createdAt]) :
    attempts ({ s with db } : World P) id = attempts s id := by
  have after : db.workflow id = (s.db.workflow id).or
      (if new = id then some (Workflow.new new kind title payload source createdAt)
        else none) := by
    rw [Database.workflow, rows, Table.get_append]
    rfl
  unfold attempts
  rw [after]
  cases s.db.workflow id with
  | some row => rfl
  | none => by_cases own : new = id <;> simp [own, Workflow.new]

/-- The step marks the workflow for a start. -/
def Marks (s : World P) (e : Event P) (id : String) : Prop :=
  ∃ p workflow rest, e = .markRunning p ∧ s.phase p = .looping (workflow :: rest) ∧
    workflow.id = id

/-- Marking uses up one attempt. -/
theorem attempts_marks (inv : Inv s) (cause : Cause s e t) (marks : Marks s e id) :
    attempts t id = attempts s id + 1 := by
  obtain ⟨p, workflow, rest, rfl, head, rfl⟩ := marks
  cases cause with
  | markRunning at_ supported =>
    cases head.symm.trans at_
    obtain ⟨row, found, _, rfl⟩ := inv.head at_ supported
    rw [attempts_commit (markRunning (.load row)) found load_readFrom.markRunning,
      attempts_found found]
    exact if_pos rfl

/-- No other step changes the attempts of a workflow. -/
theorem attempts_step (inv : Inv s) (cause : Cause s e t) (other : ¬ Marks s e id) :
    attempts t id = attempts s id := by
  cases cause with
  | @markRunning p workflow rest at_ supported =>
    obtain ⟨row, found, _, rfl⟩ := inv.head at_ supported
    rw [attempts_commit (markRunning (.load row)) found load_readFrom.markRunning]
    exact if_neg fun own => other ⟨p, .load row, rest, rfl, at_, own.symm⟩
  | @waitForHuman p workflow rest at_ =>
    obtain ⟨row, found, _, rfl⟩ := inv.current (by rw [at_]; rfl)
    exact attempts_commit_same (waitForHuman (.load row)) found
      load_readFrom.waitForHuman rfl _ _
  | @finish p workflow rest at_ outcome escalationId =>
    obtain ⟨row, found, _, rfl⟩ := inv.current (by rw [at_]; rfl)
    have read : ReadFrom (finish (.load row) outcome) row := load_readFrom.finish outcome
    have same : (finish (.load row) outcome).id = row.id := read.id
    exact attempts_commit_same _ (same ▸ found) read
      (congrArg Tracked.current (finish_attempts outcome)) _ _
  | record at_ =>
    rename_i record _ _
    exact attempts_same (by cases record <;> rfl)
  | create _ rows => exact attempts_create rows
  | select _ => exact attempts_same rfl
  | unsupported _ => exact attempts_same rfl
  | startAgent _ => exact attempts_same rfl
  | next _ => exact attempts_same rfl
  | close _ => exact attempts_same rfl

/-- A processor about to call an agent was so before, or has just marked the workflow. -/
theorem marked_step (cause : Cause s e t) {q : P} {rest : List WorkflowCopy}
    (at_ : t.phase q = .marked workflow rest) :
    s.phase q = .marked workflow rest ∨ Marks s e workflow.id := by
  have moved : ∀ {p : P} {db : Database} {phase : Phase}, t = s.move p db phase →
      (phase = .marked workflow rest → Marks s e workflow.id) →
      s.phase q = .marked workflow rest ∨ Marks s e workflow.id := by
    rintro p db phase rfl marks
    by_cases own : q = p
    · subst own
      rw [move_self] at at_
      exact .inr (marks at_)
    · rw [move_of_ne own] at at_
      exact .inl at_
  cases cause with
  | markRunning head =>
    apply moved rfl
    intro same
    cases same
    exact ⟨_, _, _, rfl, head, rfl⟩
  | create _ _ => exact .inl at_
  | _ => exact moved rfl (by simp)

/-- `n` starts have used up at most the attempts, and each workflow marked for a start one more. -/
structure Counted (id : String) (n : ℤ) (s : World P) : Prop where
  used : n ≤ attempts s id
  marked : ∀ p workflow rest, s.phase p = .marked workflow rest → workflow.id = id →
    n + 1 ≤ attempts s id

omit [DecidableEq P] in
theorem initial_counted (initial : Initial s) : Counted id (attempts s id) s := by
  refine ⟨le_refl _, fun p workflow rest at_ => ?_⟩
  rw [initial.idle p] at at_
  cases at_

/-- A start uses up the attempt that its processor has marked. -/
theorem counted_start (inv : Inv s) {p : P} (cause : Cause s (.startAgent p id) t) {n : ℤ}
    (counted : Counted id n s) : Counted id (n + 1) t := by
  cases cause with
  | @startAgent _ workflow _ at_ =>
    have used := counted.marked _ _ _ at_ rfl
    have same : attempts (s.move p ((startedRecord workflow).commit s.db)
        (.running workflow ‹_›)) workflow.id = attempts s workflow.id := attempts_same rfl
    refine ⟨by omega, fun q w rest marked own => ?_⟩
    exfalso
    by_cases self : q = p
    · subst self
      rw [move_self] at marked
      cases marked
    · rw [move_of_ne self] at marked
      apply inv.apart q p self w.id
      · rw [marked]
        exact List.mem_cons_self
      · rw [at_, own]
        exact List.mem_cons_self

theorem counted_step (inv : Inv s) (cause : Cause s e t) {n : ℤ} (counted : Counted id n s) :
    Counted id (n + if e.startsAgent id then 1 else 0) t := by
  by_cases start : e.startsAgent id = true
  · rw [if_pos start]
    cases e <;> simp only [Event.startsAgent, Bool.false_eq_true, beq_iff_eq] at start
    subst start
    exact counted_start inv cause counted
  · rw [if_neg start, Int.add_zero]
    have room := counted.used
    by_cases marks : Marks s e id
    · have more := attempts_marks inv cause marks
      refine ⟨by omega, fun q w rest marked own => ?_⟩
      omega
    · have same := attempts_step inv cause marks
      refine ⟨by omega, fun q w rest marked own => ?_⟩
      rw [same]
      rcases marked_step cause marked with before | now
      · exact counted.marked q w rest before own
      · exact absurd (own ▸ now) marks

end Attempts

section Closed

variable {id : String} {row : Workflow}

omit [DecidableEq P] in
/-- Nobody can still write to a row whose status no copy in use has. -/
theorem Agrees.other {allowed : List WorkflowStatus} {workflow : WorkflowCopy}
    (agrees : Agrees s.db allowed workflow) (found : s.db.workflow id = some row)
    (closed : row.status ∉ allowed) : id ≠ workflow.id := by
  rintro rfl
  obtain ⟨r, same, status, _⟩ := agrees
  cases found.symm.trans same
  exact closed status

/-- A completed or failed row stays as it is, and the step starts nothing for it. -/
theorem closed_step (inv : Inv s) (cause : Cause s e t) (found : s.db.workflow id = some row)
    (closed : row.status = .completed ∨ row.status = .failed) :
    t.db.workflow id = some row ∧ e.startsAgent id = false := by
  have notPending : row.status ∉ [WorkflowStatus.pending] := by
    rcases closed with h | h <;> simp [h]
  have notActive : row.status ∉ [WorkflowStatus.running, .waitingForHuman] := by
    rcases closed with h | h <;> simp [h]
  cases cause with
  | markRunning at_ supported =>
    have other := (inv.head at_ supported).other found notPending
    exact ⟨(commit_other (markRunning _) other).trans found, rfl⟩
  | startAgent at_ =>
    have other := (inv.current (by rw [at_]; rfl)).other found notActive
    exact ⟨found, by simpa [Event.startsAgent] using other.symm⟩
  | waitForHuman at_ =>
    have other := (inv.current (by rw [at_]; rfl)).other found notActive
    exact ⟨(commit_other (waitForHuman _) other).trans found, rfl⟩
  | @finish p workflow rest at_ outcome escalationId =>
    have agrees := inv.current (by rw [at_]; rfl)
    have other := agrees.other found notActive
    obtain ⟨r, _, _, rfl⟩ := agrees
    have same : (finish (.load r) outcome).id = r.id := (load_readFrom.finish outcome).id
    exact ⟨(commit_other _ (same ▸ other)).trans found, rfl⟩
  | record at_ =>
    rename_i record _ _
    refine ⟨?_, rfl⟩
    cases record <;> exact found
  | create new rows =>
    refine ⟨?_, rfl⟩
    show Table.get _ _ _ = _
    rw [rows, Table.get_append]
    show (s.db.workflow id).or _ = _
    rw [found, Option.some_or]
  | _ => exact ⟨found, rfl⟩

end Closed

section Runs

variable {es : List (Event P)} {id : String}

/-- The invariant and the count of starts, along a run without overlapping passes. -/
theorem run_counted (id : String) (run : Run (Guarded NoOverlap (ofPartial step)) s es t)
    (inv : Inv s) {n : ℤ} (counted : Counted id n s) : Inv t ∧ Counted id (n + starts es id) t := by
  induction run generalizing n with
  | nil s => exact ⟨inv, by simpa [starts] using counted⟩
  | @cons s r t e es first _ ih =>
    have cause := step_cause first.2
    obtain ⟨final, count⟩ := ih (inv_step inv first.1 cause) (counted_step inv cause counted)
    refine ⟨final, ?_⟩
    have total : n + (starts (e :: es) id : ℕ) =
        n + (if e.startsAgent id then 1 else 0) + (starts es id : ℕ) := by
      unfold starts
      rw [List.countP_cons]
      split <;> omega
    rw [total]
    exact count

theorem run_closed {row : Workflow} (run : Run (Guarded NoOverlap (ofPartial step)) s es t)
    (inv : Inv s) (found : s.db.workflow id = some row)
    (closed : row.status = .completed ∨ row.status = .failed) : starts es id = 0 := by
  induction run with
  | nil s => rfl
  | @cons s r t e es first _ ih =>
    have cause := step_cause first.2
    obtain ⟨stays, silent⟩ := closed_step inv cause found closed
    have later := ih (inv_step inv first.1 cause) stays
    unfold starts at later ⊢
    rw [List.countP_cons_of_neg (by simp [silent]), later]

omit [DecidableEq P] in
/-- Two processors never hold the same workflow, so nobody else is inside one that `p` holds. -/
theorem Inv.alone (inv : Inv s) {p q : P} (held : id ∈ (s.phase p).held) (other : q ≠ p) :
    (s.phase q).inside ≠ some id :=
  fun inside => inv.apart p q (Ne.symm other) id held (inside_held inside)

/-- As long as no pass selects a workflow that another pass still holds, each start finds a
pending row and no other processor at it, and nothing is run too often or after its end. -/
theorem at_most_once {s₀ : World P} (initial : Initial s₀)
    (run : Run (Guarded NoOverlap (ofPartial step)) s₀ es s) :
    AtMostOnce (Guarded NoOverlap (ofPartial step)) s₀ es s := by
  have inv : Inv s := (run_counted "" run (initial_inv initial)
    (initial_counted initial)).1
  refine ⟨?_, ?_, ?_, ?_⟩
  · rintro p t ⟨_, taken⟩
    cases step_cause taken with
    | markRunning at_ supported =>
      obtain ⟨row, found, status, copy⟩ := inv.head at_ supported
      refine ⟨_, _, row, at_, found, by simpa using status, fun q other => ?_⟩
      apply inv.alone (rest_held _) other
      rw [at_]
      exact List.mem_filter.mpr ⟨List.mem_cons_self, supported⟩
  · rintro p id t ⟨_, taken⟩ q other
    cases step_cause taken with
    | startAgent at_ =>
      apply inv.alone _ other
      rw [at_]
      exact List.mem_cons_self
  · intro id row found closed fs t later
    exact run_closed later inv found closed
  · intro id row found
    obtain ⟨_, counted⟩ := run_counted id run (initial_inv initial)
      (initial_counted initial)
    have used := counted.used
    rw [attempts_found found] at used
    exact used.trans (inv.rows row (Table.get_mem found).1).1

end Runs

section Sample

/-- The two processors that the runbook prescribes. -/
inductive Processor
  | scheduler | worker
  deriving DecidableEq

instance : Fintype Processor where
  elems := {Processor.scheduler, Processor.worker}
  complete := by
    intro p
    cases p <;> decide

instance (s : World Processor) (e : Event Processor) : Decidable (NoOverlap s e) :=
  match e with
  | .select p => inferInstanceAs (Decidable (∀ row ∈ pendingWorkflows s.db.workflows,
      ∀ q, q ≠ p → row.id ∉ (s.phase q).held))
  | .unsupported _ | .markRunning _ | .startAgent _ _ | .waitForHuman _ | .finish _ _ _
  | .record _ | .next _ | .close _ | .create _ _ _ _ _ _ => isTrue trivial

def sampleRow : Workflow := Workflow.new "w" "finance_operations" "Invoice" .null "api" 0

def sampleWorld : World Processor where
  db := { Database.empty with workflows := [sampleRow] }
  phase := fun _ => .idle

theorem sampleWorld_initial : Initial sampleWorld := ⟨fun _ => rfl, by decide, by decide⟩

/-- A pass of the scheduler in which the agent fails, and then one of the worker. -/
def sampleEvents : List (Event Processor) :=
  [.select .scheduler, .markRunning .scheduler, .startAgent .scheduler "w",
    .finish .scheduler (.error "timeout") "e", .record .scheduler, .next .scheduler,
    .close .scheduler, .select .worker, .markRunning .worker, .startAgent .worker "w",
    .finish .worker (.ok .null) "e", .record .worker, .next .worker, .close .worker]

theorem at_most_once_serial : ∃ s, Run (Guarded NoOverlap (ofPartial step)) sampleWorld
    sampleEvents s ∧ AtMostOnce (Guarded NoOverlap (ofPartial step)) sampleWorld sampleEvents s ∧
    starts sampleEvents "w" = 2 := by
  have runs : (sampleEvents.foldlM
      (fun s e => if NoOverlap s e then step s e else none) sampleWorld).isSome := by decide
  obtain ⟨s, last⟩ := Option.isSome_iff_exists.mp runs
  have run := Run.of_guarded_foldlM last
  exact ⟨s, run, at_most_once sampleWorld_initial run, by decide⟩

/-- Both processors select the workflow before either marks it. -/
def overlapping : List (Event Processor) :=
  [.select .scheduler, .select .worker, .markRunning .scheduler, .startAgent .scheduler "w",
    .finish .scheduler (.ok .null) "e", .record .scheduler, .next .scheduler]

def overlapped : World Processor := (overlapping.foldlM step sampleWorld).getD sampleWorld

/-- The worker then starts the completed workflow from its stale copy. -/
theorem completed_run_again : ¬ ∀ (s₀ : World Processor) es s, Initial s₀ →
    Run (ofPartial step) s₀ es s → AtMostOnce (ofPartial step) s₀ es s := by
  intro law
  have last : overlapping.foldlM step sampleWorld = some overlapped := rfl
  have completed : (overlapped.db.workflow "w").map Workflow.status = some .completed := by decide
  have stale : overlapped.phase .worker = .looping [.load sampleRow] := rfl
  obtain ⟨workflow, rest, row, at_, found, pending, _⟩ :=
    (law _ _ _ sampleWorld_initial (Run.of_foldlM last)).start .worker _ rfl
  cases stale.symm.trans at_
  rw [show overlapped.db.workflow "w" = some row from found, Option.map_some, pending] at completed
  cases completed

end Sample

end BusinessOs.App.SchedulerRuns
