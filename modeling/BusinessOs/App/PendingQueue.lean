/- Source: app/services/scheduler.py (process_pending_workflows), app/agents/orchestrator.py,
     app/services/workflows.py (create), app/api/routes_webhooks.py (uipath_webhook)
   digest: When a pass over the pending workflows brings every one of them forward. -/

import BusinessOs.App.FlushFailures
import BusinessOs.App.Scheduler

set_option autoImplicit false
set_option relaxedAutoImplicit false

namespace BusinessOs.App.PendingQueue

open BusinessOs.Lib BusinessOs.Lib.Execution BusinessOs.Lib.Json.Tree
open BusinessOs.App.Models BusinessOs.App.Workflows BusinessOs.App.Company
open BusinessOs.App.Scheduler BusinessOs.App.Orchestrator BusinessOs.App.FlushFailures

/-- What `run_workflow` meets in one pass, by the workflow. -/
structure Pass where
  attempt : String → Attempt

section Pass

variable (pass : Pass)

/-- The commit that fails in the run of a row. -/
def Pass.failure (row : Workflow) : Option ℕ := (pass.attempt row.id).failure (.load row)

/-- The loop of the pass; `run_workflow` raises into a log entry. Behind a flush that has failed the
entry reads the workflow's id from the same session, which raises out of the pass. -/
def runEach (db : CompanyDatabase) : List Workflow → CompanyDatabase
  | [] => db
  | row :: rows =>
    let next := (pass.attempt row.id).run (.load row) db
    if (pass.failure row).isSome then next else runEach next rows

/-- The workflows that a pass selects. -/
def selected (db : CompanyDatabase) : List Workflow := pendingWorkflows db.workflows

def processPendingWorkflows (db : CompanyDatabase) : CompanyDatabase :=
  runEach pass db (selected db)

end Pass

/-- Creations by the routes, with any kind, and passes of the queue. -/
inductive Event
  | create (creation : Creation)
  | pass (pass : Pass)

def Step (db : CompanyDatabase) (e : Event) (next : CompanyDatabase) : Prop :=
  match e with
  | .create creation =>
    creation.id ∉ db.workflows.map Workflow.id ∧ next = createWorkflow creation db
  | .pass pass => next = processPendingWorkflows pass db

/-- No workflow exists yet. -/
def Initial (db : CompanyDatabase) : Prop := db.workflows = []

/-- The row has left the pending status, or an attempt was made. -/
def Progressed (row : Workflow) (db : CompanyDatabase) : Prop :=
  ∃ next, db.workflow row.id = some next ∧
    (next.status ≠ .pending ∨ row.attempts < next.attempts)

/-- The attempts that a pending row has left. -/
def left (row : Workflow) : ℕ :=
  if row.status = .pending then (row.maxAttempts - row.attempts).toNat else 0

/-- The sum of `max_attempts - attempts` over the pending workflows. -/
def potential (db : CompanyDatabase) : ℕ := (db.workflows.map left).sum

/-- The kinds of the selected workflows have agents, and no commit fails but in the run of the last
of them, behind the first commit of `mark_running`. -/
def Carried (pass : Pass) (db : CompanyDatabase) : Prop :=
  ∀ row ∈ selected db, (WorkflowCopy.load row).supported = true ∧
    ∀ k ∈ pass.failure row, 2 ≤ k ∧ (selected db).getLast? = some row

/-- Passes of that sort are made where they select something. -/
def Busy (db : CompanyDatabase) : Event → Prop
  | .create _ => True
  | .pass pass => Carried pass db ∧ selected db ≠ []

def Event.isPass : Event → Bool
  | .create _ => false
  | .pass _ => true

/-- Distinct ids, and an attempt left in every pending row. -/
structure Lawful (db : CompanyDatabase) : Prop where
  keys : (db.workflows.map Workflow.id).Nodup
  room : ∀ row ∈ db.workflows, row.status = .pending → row.attempts < row.maxAttempts

section OneRun

variable {db : CompanyDatabase} {row : Workflow} (attempt : Attempt)

/-- A run of a pending workflow that gets behind the first commit lowers the sum. -/
theorem run_potential (lawful : Lawful db) (found : db.workflow row.id = some row)
    (pending : row.status = .pending) (supported : (WorkflowCopy.load row).supported = true)
    (started : ∀ k ∈ attempt.failure (.load row), 2 ≤ k) :
    potential (attempt.run (.load row) db) + 1 ≤ potential db := by
  obtain ⟨change, keeps, rows⟩ := run_rows db row attempt
  obtain ⟨next, after, maxAttempts, ⟨⟨k, fails, early⟩, _⟩ | ⟨_, attempts, _⟩⟩ :=
    run_row attempt found supported
  · exact absurd (started k fails) (Nat.not_le_of_lt early)
  · have changed : change row = next := by
      rw [Database.workflow, rows, Table.get_update_self keeps] at after
      rw [show Table.get Workflow.id db.workflows row.id = some row from found] at after
      exact Option.some.inj after
    have sum := Table.sum_update (f := change) left lawful.keys found
    rw [changed, ← rows] at sum
    have room := lawful.room row (Table.get_mem found).1 pending
    have before : left row = (row.maxAttempts - row.attempts).toNat := if_pos pending
    have lower : left next + 1 ≤ left row := by
      rw [before, left, attempts, maxAttempts]
      split <;> omega
    show ((attempt.run _ db).workflows.map left).sum + 1 ≤ (db.workflows.map left).sum
    omega

theorem run_lawful (lawful : Lawful db) (found : db.workflow row.id = some row) :
    Lawful (attempt.run (.load row) db) := by
  cases supported : (WorkflowCopy.load row).supported with
  | false => rwa [unsupported_run supported]
  | true =>
    obtain ⟨change, keeps, rows⟩ := run_rows db row attempt
    obtain ⟨next, after, maxAttempts, left⟩ := run_row attempt found supported
    have keys : ((attempt.run (.load row) db).workflows.map Workflow.id).Nodup := by
      rw [rows, Table.keys_update keeps]
      exact lawful.keys
    refine ⟨keys, ?_⟩
    intro other member pending
    have present := Table.get_of_mem keys member
    by_cases own : other.id = row.id
    · rw [own] at present
      obtain rfl : next = other := Option.some.inj (after.symm.trans present)
      rcases left with ⟨_, rfl⟩ | ⟨_, attempts, queued⟩
      · exact lawful.room next (Table.get_mem found).1 pending
      · rw [attempts, maxAttempts]
        exact queued pending
    · have same : (attempt.run (.load row) db).workflow other.id = db.workflow other.id :=
        run_of_ne own
      rw [Database.workflow, present] at same
      exact lawful.room other (Table.get_mem same.symm).1 pending

end OneRun

section Loop

variable {db : CompanyDatabase} {rows : List Workflow} (pass : Pass)

/-- Rows that a pass has selected and not yet visited: each once, pending, as the table has it. -/
structure Queued (db : CompanyDatabase) (rows : List Workflow) : Prop where
  distinct : (rows.map Workflow.id).Nodup
  found : ∀ row ∈ rows, db.workflow row.id = some row
  pending : ∀ row ∈ rows, row.status = .pending

/-- The visit of one row leaves the others queued. -/
theorem Queued.tail {row : Workflow} (queued : Queued db (row :: rows)) :
    Queued ((pass.attempt row.id).run (.load row) db) rows := by
  obtain ⟨distinct, found, pending⟩ := queued
  rw [List.map_cons, List.nodup_cons] at distinct
  obtain ⟨new, distinct⟩ := distinct
  refine ⟨distinct, ?_, fun other member => pending other (List.mem_cons_of_mem _ member)⟩
  intro other member
  have apart : other.id ≠ row.id := by
    intro same
    exact new (List.mem_map.mpr ⟨other, member, same⟩)
  rw [run_of_ne apart]
  exact found other (List.mem_cons_of_mem _ member)

theorem runEach_failed {row : Workflow} (fails : (pass.failure row).isSome) :
    runEach pass db (row :: rows) = (pass.attempt row.id).run (.load row) db :=
  if_pos fails

theorem runEach_passed {row : Workflow} (fine : pass.failure row = none) :
    runEach pass db (row :: rows) =
      runEach pass ((pass.attempt row.id).run (.load row) db) rows := by
  rw [runEach, fine]
  rfl

/-- The loop leaves the rows of all other workflows. -/
theorem runEach_of_notMem {id : String} (outside : id ∉ rows.map Workflow.id) :
    (runEach pass db rows).workflow id = db.workflow id := by
  induction rows generalizing db with
  | nil => rfl
  | cons row rows ih =>
    rw [List.map_cons, List.mem_cons, not_or] at outside
    obtain ⟨other, outside⟩ := outside
    cases fails : pass.failure row with
    | none =>
      rw [runEach_passed pass fails, ih outside]
      exact run_of_ne other
    | some k =>
      rw [runEach_failed pass (by rw [fails]; rfl)]
      exact run_of_ne other

/-- A row that is still as it was has not come forward. -/
theorem not_progressed {row : Workflow} (present : db.workflow row.id = some row)
    (pending : row.status = .pending) : ¬ Progressed row db := by
  rintro ⟨next, after, progress⟩
  obtain rfl := Option.some.inj (present.symm.trans after)
  rcases progress with moved | attempted
  · exact moved pending
  · exact absurd attempted (lt_irrefl _)

/-- The first of the queued rows ends as its own run leaves it, and that is a step forward for a
supported kind only, and behind the first commit. -/
theorem first_progress {row : Workflow} (queued : Queued db (row :: rows)) :
    Progressed row (runEach pass db (row :: rows)) ↔
      (WorkflowCopy.load row).supported = true ∧ ∀ k ∈ pass.failure row, 2 ≤ k := by
  have present := queued.found row List.mem_cons_self
  have pending := queued.pending row List.mem_cons_self
  have new : row.id ∉ rows.map Workflow.id := (List.nodup_cons.mp queued.distinct).1
  have kept : (runEach pass db (row :: rows)).workflow row.id =
      ((pass.attempt row.id).run (.load row) db).workflow row.id := by
    cases fails : pass.failure row with
    | none => rw [runEach_passed pass fails, runEach_of_notMem pass new]
    | some k => rw [runEach_failed pass (by rw [fails]; rfl)]
  have own : Progressed row (runEach pass db (row :: rows)) ↔
      Progressed row ((pass.attempt row.id).run (.load row) db) := by
    unfold Progressed
    rw [kept]
  rw [own]
  cases supported : (WorkflowCopy.load row).supported with
  | false =>
    rw [unsupported_run supported]
    exact iff_of_false (not_progressed present pending) (by simp)
  | true =>
    obtain ⟨next, after, _, ⟨⟨k, fails, early⟩, rfl⟩ | ⟨started, attempts, _⟩⟩ :=
      run_row (pass.attempt row.id) present supported
    · refine iff_of_false (not_progressed after pending) fun all => ?_
      exact absurd (all.2 k fails) (Nat.not_le_of_lt early)
    · refine iff_of_true ⟨next, after, .inr ?_⟩ ⟨rfl, started⟩
      rw [attempts]
      omega

/-- All queued rows come forward exactly where their kinds have agents, and no commit fails but in
the run of the last row, behind the first commit. -/
theorem runEach_progress (queued : Queued db rows) :
    (∀ row ∈ rows, Progressed row (runEach pass db rows)) ↔
      ∀ row ∈ rows, (WorkflowCopy.load row).supported = true ∧
        ∀ k ∈ pass.failure row, 2 ≤ k ∧ rows.getLast? = some row := by
  induction rows generalizing db with
  | nil => simp
  | cons first rows ih =>
    have own := first_progress pass queued
    have apart : ∀ row ∈ rows, row ≠ first := by
      rintro row member rfl
      exact (List.nodup_cons.mp queued.distinct).1 (List.mem_map_of_mem member)
    cases fails : pass.failure first with
    | none =>
      have last : ∀ row ∈ rows,
          ((first :: rows).getLast? = some row ↔ rows.getLast? = some row) := by
        intro row member
        cases rows with
        | nil => cases member
        | cons second rows => rw [List.getLast?_cons_cons]
      rw [List.forall_mem_cons, List.forall_mem_cons, own, fails]
      refine and_congr ?_ ?_
      · simp
      · rw [runEach_passed pass fails, ih (queued.tail pass)]
        exact forall₂_congr fun row member => by rw [last row member]
    | some k =>
      have stops : runEach pass db (first :: rows) = _ :=
        runEach_failed pass (by rw [fails]; rfl)
      cases rows with
      | nil =>
        rw [List.forall_mem_singleton, List.forall_mem_singleton, own]
        simp
      | cons second rows =>
        -- The rows behind a failure stay as they are, and the failing one is not the last.
        have present := (queued.tail pass).found second List.mem_cons_self
        have pending := (queued.tail pass).pending second List.mem_cons_self
        refine iff_of_false (fun all => ?_) fun all => ?_
        · have forward := all second (List.mem_cons_of_mem _ List.mem_cons_self)
          rw [stops] at forward
          exact not_progressed present pending forward
        · have last := ((all first List.mem_cons_self).2 k fails).2
          rw [List.getLast?_cons_cons] at last
          exact apart first (List.mem_of_getLast? last) rfl

/-- Every visit of a row takes at least one attempt off the sum, where all of them come forward. -/
theorem runEach_potential (lawful : Lawful db) (queued : Queued db rows)
    (carried : ∀ row ∈ rows, (WorkflowCopy.load row).supported = true ∧
      ∀ k ∈ pass.failure row, 2 ≤ k) (some_ : rows ≠ []) :
    potential (runEach pass db rows) + 1 ≤ potential db := by
  induction rows generalizing db with
  | nil => exact absurd rfl some_
  | cons row rows ih =>
    have present := queued.found row List.mem_cons_self
    obtain ⟨supported, started⟩ := carried row List.mem_cons_self
    have first := run_potential (pass.attempt row.id) lawful present
      (queued.pending row List.mem_cons_self) supported started
    cases fails : pass.failure row with
    | some k =>
      rw [runEach_failed pass (by rw [fails]; rfl)]
      exact first
    | none =>
      rw [runEach_passed pass fails]
      by_cases none_ : rows = []
      · rw [none_]
        exact first
      · have rest := ih (run_lawful _ lawful present) (queued.tail pass)
          (fun other member => carried other (List.mem_cons_of_mem _ member)) none_
        omega

theorem runEach_lawful (lawful : Lawful db) (queued : Queued db rows) :
    Lawful (runEach pass db rows) := by
  induction rows generalizing db with
  | nil => exact lawful
  | cons row rows ih =>
    have next := run_lawful (pass.attempt row.id) lawful (queued.found row List.mem_cons_self)
    cases fails : pass.failure row with
    | none =>
      rw [runEach_passed pass fails]
      exact ih next (queued.tail pass)
    | some k =>
      rw [runEach_failed pass (by rw [fails]; rfl)]
      exact next

/-- Nothing is done for kinds without an agent. -/
theorem runEach_unsupported
    (unsupported : ∀ row ∈ rows, (WorkflowCopy.load row).supported = false) :
    runEach pass db rows = db := by
  induction rows with
  | nil => rfl
  | cons row rows ih =>
    have own := unsupported row List.mem_cons_self
    rw [runEach_passed pass (unsupported_failure own), unsupported_run own]
    exact ih fun other member => unsupported other (List.mem_cons_of_mem _ member)

end Loop

section Steps

variable {db next : CompanyDatabase} {e : Event} {es : List Event}

theorem selected_queued (lawful : Lawful db) : Queued db (selected db) := by
  refine ⟨pendingWorkflows_nodup lawful.keys, ?_, ?_⟩
  · intro row member
    exact Table.get_of_mem lawful.keys (pendingWorkflows_mem member).1
  · intro row member
    exact (pendingWorkflows_mem member).2

theorem lawful_initial (initial : Initial db) : Lawful db := by
  refine ⟨?_, ?_⟩
  · rw [initial]
    exact List.nodup_nil
  · intro row member
    rw [initial] at member
    cases member

theorem lawful_step (lawful : Lawful db) (step : Step db e next) : Lawful next := by
  cases e with
  | create creation =>
    obtain ⟨new, rfl⟩ := step
    refine ⟨Table.nodup_append lawful.keys new, ?_⟩
    intro row member pending
    rcases List.mem_append.mp member with old | added
    · exact lawful.room row old pending
    · obtain rfl := List.mem_singleton.mp added
      show (0 : ℤ) < 3
      omega
  | pass pass =>
    obtain rfl : next = processPendingWorkflows pass db := step
    exact runEach_lawful pass lawful (selected_queued lawful)

theorem lawful_run (lawful : Lawful db) (run : Run Step db es next) : Lawful next :=
  run.invariant (fun _ _ _ held step => lawful_step held step) lawful

/-- A creation adds three attempts to the sum; a pass takes off one at least. -/
theorem step_potential (lawful : Lawful db) (busy : Busy db e) (step : Step db e next) :
    potential next + [e].countP Event.isPass ≤
      potential db + 3 * [e].countP (fun e => !e.isPass) := by
  cases e with
  | create creation =>
    obtain ⟨_, rfl⟩ := step
    have added : potential (createWorkflow creation db) = potential db + 3 := by
      show ((db.workflows ++ [creation.row]).map left).sum = _
      rw [List.map_append, List.sum_append]
      rfl
    rw [added]
    simp [Event.isPass]
  | pass pass =>
    obtain ⟨carried, some_⟩ := busy
    obtain rfl : next = processPendingWorkflows pass db := step
    have started : ∀ row ∈ selected db, (WorkflowCopy.load row).supported = true ∧
        ∀ k ∈ pass.failure row, 2 ≤ k := fun row member =>
      ⟨(carried row member).1, fun k fails => ((carried row member).2 k fails).1⟩
    have lower := runEach_potential pass lawful (selected_queued lawful) started some_
    show potential (runEach pass db (selected db)) + 1 ≤ potential db + 0
    omega

theorem run_potential_le (lawful : Lawful db) (run : Run (Guarded Busy Step) db es next) :
    potential next + es.countP Event.isPass ≤
      potential db + 3 * es.countP (fun e => !e.isPass) := by
  induction run with
  | nil s => exact le_refl _
  | cons first rest ih =>
    obtain ⟨busy, step⟩ := first
    have one := step_potential lawful busy step
    have others := ih (lawful_step lawful step)
    rw [List.countP_cons, List.countP_cons]
    rw [List.countP_singleton, List.countP_singleton] at one
    omega

end Steps

/-- A pass brings all selected workflows forward exactly where their kinds have agents, and no
commit fails but in the run of the last of them, behind the first commit of `mark_running`; passes
of that sort are as few as the attempts that are left and those that creations add. -/
theorem queue_progress {start db : CompanyDatabase} {es : List Event} (initial : Initial start)
    (run : Run Step start es db) (pass : Pass) :
    ((∀ row ∈ selected db, Progressed row (processPendingWorkflows pass db)) ↔
      Carried pass db) ∧
    ∀ fs last, Run (Guarded Busy Step) db fs last →
      fs.countP Event.isPass ≤ potential db + 3 * fs.countP (fun e => !e.isPass) := by
  have lawful := lawful_run (lawful_initial initial) run
  refine ⟨runEach_progress pass (selected_queued lawful), ?_⟩
  intro fs last busy
  have bound := run_potential_le lawful busy
  omega

section Sample

def sampleStart : CompanyDatabase := ⟨.empty, [], [], []⟩

/-- What a webhook of the automation platform may name. -/
def sampleUnsupported : Creation := ⟨"w", "invoice_sync", "Sync", .object [], "uipath", 0⟩

def sampleSupported : Creation := ⟨"w", "client_onboarding", "Onboard", .object [], "api", 0⟩

theorem sampleStart_initial : Initial sampleStart := rfl

def samplePass : Pass := ⟨fun _ => ⟨.raises [] 0 "timeout", "e", none⟩⟩

theorem queue_progress_sample :
    ((∀ row ∈ selected (createWorkflow sampleSupported sampleStart), Progressed row
      (processPendingWorkflows samplePass (createWorkflow sampleSupported sampleStart))) ↔
      Carried samplePass (createWorkflow sampleSupported sampleStart)) ∧
    ∀ fs last, Run (Guarded Busy Step) (createWorkflow sampleSupported sampleStart) fs last →
      fs.countP Event.isPass ≤ potential (createWorkflow sampleSupported sampleStart) +
        3 * fs.countP (fun e => !e.isPass) := by
  have created : Step sampleStart (.create sampleSupported)
      (createWorkflow sampleSupported sampleStart) := ⟨List.not_mem_nil, rfl⟩
  exact queue_progress sampleStart_initial (.single created) samplePass

/-- A workflow of a kind without an agent stays as it is. -/
theorem queue_stuck : ¬ ∀ (start db : CompanyDatabase) (es : List Event), Initial start →
    Run Step start es db → ∀ pass, ∀ row ∈ selected db,
    Progressed row (processPendingWorkflows pass db) := by
  intro law
  have created : Step sampleStart (.create sampleUnsupported)
      (createWorkflow sampleUnsupported sampleStart) := ⟨List.not_mem_nil, rfl⟩
  have run := Run.single created
  have member : sampleUnsupported.row ∈ selected (createWorkflow sampleUnsupported sampleStart) :=
    List.mem_cons_self
  have progress := law _ _ _ sampleStart_initial run samplePass _ member
  have queued := selected_queued (lawful_run (lawful_initial sampleStart_initial) run)
  have supported := ((first_progress samplePass queued).mp progress).1
  exact absurd supported (by decide)

end Sample

/-- Selected rows without an agent are selected again for ever: no pass changes anything. -/
theorem starved {db last : CompanyDatabase} {es : List Event}
    (unsupported : ∀ row ∈ selected db, (WorkflowCopy.load row).supported = false)
    (passes : ∀ e ∈ es, e.isPass = true) (run : Run Step db es last) : last = db := by
  induction run with
  | nil s => rfl
  | cons first rest ih =>
    rename_i e es
    cases e with
    | create creation => cases passes _ List.mem_cons_self
    | pass pass =>
      have same : _ = processPendingWorkflows pass _ := first
      rw [processPendingWorkflows, runEach_unsupported pass unsupported] at same
      subst same
      exact ih unsupported fun e member => passes e (List.mem_cons_of_mem _ member)

end BusinessOs.App.PendingQueue
