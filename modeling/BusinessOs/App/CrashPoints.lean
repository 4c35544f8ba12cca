/- Source: app/agents/orchestrator.py, app/services/workflows.py, app/services/scheduler.py,
     README.md
   digest: What is left of a workflow when the process dies inside run_workflow. -/

import BusinessOs.App.Orchestrator

set_option autoImplicit false
set_option relaxedAutoImplicit false

namespace BusinessOs.App.CrashPoints

open BusinessOs.Lib BusinessOs.Lib.Json.Tree
open BusinessOs.App.Models BusinessOs.App.Workflows BusinessOs.App.Company
open BusinessOs.App.Sessions BusinessOs.App.Orchestrator

/-- The committed rows after a death behind the first `k` statements of `run_workflow`. -/
def crashed (workflow : WorkflowCopy) (behaviour : Behaviour) (escalationId : String) (k : ℕ)
    (db : CompanyDatabase) : CompanyDatabase :=
  (execute (Session.start db workflow)
    ((program workflow behaviour escalationId).take k)).db

/-- A status from which a workflow is finished or will be taken up again. -/
def Resumable (id : String) (db : CompanyDatabase) : WorkflowStatus → Prop
  | .completed | .failed | .cancelled | .pending => True
  | .waitingForHuman => SomeoneAsked id db
  | .running => False

/-- The workflow has survived. -/
def Survives (id : String) (db : CompanyDatabase) : Prop :=
  ∃ row, db.workflow id = some row ∧ Resumable id db row.status

/-- The statements of the agent that were run. -/
def executed (behaviour : Behaviour) (id : String) (k : ℕ) : List Statement :=
  (behaviour.statements id).take (k - 4)

/-- The agent has committed the waiting status, and an approval is open: one of before, or one
that the agent has committed. -/
def AskedInTime (behaviour : Behaviour) (id : String) (k : ℕ) (db : CompanyDatabase) : Prop :=
  .waitForHuman ∈ settled (executed behaviour id k) ∧
    (SomeoneAsked id db ∨
      ∃ approval ∈ rowsIn Row.approval? (settled (executed behaviour id k)), OpenFor id approval)

section Cut

variable {row : Workflow} (behaviour : Behaviour) (escalationId : String) {k : ℕ}

/-- Behind the start, the statements that were run are some of the agent's, then some of the
orchestrator's. -/
theorem take_program (supported : (WorkflowCopy.load row).supported = true) (started : 4 ≤ k) :
    (program (.load row) behaviour escalationId).take k =
      opening (.load row) ++ (executed behaviour row.id k ++
        (closing (copyAfter (.load row) (opening (.load row) ++ behaviour.statements row.id))
          escalationId behaviour.outcome).take (k - 4 - (behaviour.statements row.id).length)) := by
  have whole : (opening (.load row)).take k = opening (.load row) :=
    List.take_of_length_le started
  have length : (opening (.load row)).length = 4 := rfl
  rw [program_supported behaviour escalationId supported, List.append_assoc, List.take_append,
    whole, length, List.take_append]
  rfl

theorem settled_opening (rest : List Statement) :
    settled (opening (.load row) ++ rest) = opening (.load row) ++ settled rest :=
  settled_append [.markRunning, .commit, .add (Orchestrator.row (startedRecord (.load row)))] rest

/-- Up to the commit of the outcome, what is committed is the start and a part of the agent. -/
theorem settled_before (supported : (WorkflowCopy.load row).supported = true) (started : 2 ≤ k)
    (before : k < (behaviour.statements row.id).length + 6) :
    ∃ front, (front = [.markRunning, .commit] ∨ front = opening (.load row)) ∧
      settled ((program (.load row) behaviour escalationId).take k) =
        front ++ settled (executed behaviour row.id k) := by
  obtain rfl | rfl | later : k = 2 ∨ k = 3 ∨ 4 ≤ k := by omega
  · refine ⟨_, .inl rfl, ?_⟩
    rw [program_supported behaviour escalationId supported, List.append_assoc]
    rfl
  · refine ⟨_, .inl rfl, ?_⟩
    rw [program_supported behaviour escalationId supported, List.append_assoc]
    rfl
  · refine ⟨_, .inr rfl, ?_⟩
    rw [take_program behaviour escalationId supported later, settled_opening]
    obtain none_ | one : k - 4 - (behaviour.statements row.id).length = 0 ∨
        k - 4 - (behaviour.statements row.id).length = 1 := by omega
    · rw [none_, List.take_zero, List.append_nil]
    · rw [one]
      exact congrArg _ (settled_snoc (by simp))

/-- From that commit on, all of the agent's statements and the outcome are committed. -/
theorem settled_after (supported : (WorkflowCopy.load row).supported = true)
    (after : (behaviour.statements row.id).length + 6 ≤ k) :
    ∃ records, (∀ statement ∈ records, statement.byAgent = true ∧ statement ≠ .waitForHuman) ∧
      settled ((program (.load row) behaviour escalationId).take k) =
        opening (.load row) ++ behaviour.statements row.id ++
          [.finish behaviour.outcome, .commit] ++ records := by
  have all : executed behaviour row.id k = behaviour.statements row.id :=
    List.take_of_length_le (by omega)
  rw [take_program behaviour escalationId supported (by omega), all]
  generalize copyAfter (.load row) (opening (.load row) ++ behaviour.statements row.id) = copy
  obtain ⟨n, behind⟩ : ∃ n, k - 4 - (behaviour.statements row.id).length = n + 2 :=
    ⟨k - 6 - (behaviour.statements row.id).length, by omega⟩
  rw [behind]
  let tail := (finishRecords copy escalationId behaviour.outcome).flatMap fun record =>
    [Statement.add (Orchestrator.row record), .commit]
  have taken : (closing copy escalationId behaviour.outcome).take (n + 2) =
      [.finish behaviour.outcome] ++ [.commit] ++ tail.take n := rfl
  refine ⟨settled (tail.take n), ?_, ?_⟩
  · intro statement member
    have inside := List.mem_of_mem_take (mem_of_settled member)
    obtain ⟨record, _, own⟩ := List.mem_flatMap.mp inside
    rcases List.mem_cons.mp own with rfl | own
    · exact ⟨rfl, by simp⟩
    · obtain rfl := List.mem_singleton.mp own
      exact ⟨rfl, by simp⟩
  · rw [taken]
    have cut := settled_append (opening (.load row) ++ behaviour.statements row.id ++
      [.finish behaviour.outcome]) (tail.take n)
    simpa [List.append_assoc] using cut

end Cut

section Crash

variable {db : CompanyDatabase} {row : Workflow} (behaviour : Behaviour) (escalationId : String)
variable {k : ℕ}

/-- The status left behind is that of the copy after the committed statements. -/
theorem survives_iff (found : db.workflow row.id = some row) :
    Survives row.id (crashed (.load row) behaviour escalationId k db) ↔
      Resumable row.id (crashed (.load row) behaviour escalationId k db)
        (copyAfter (.load row) (settled ((program (.load row) behaviour escalationId).take k))
          ).status.current := by
  obtain ⟨next, present, status, _⟩ :=
    start_row found ((program (.load row) behaviour escalationId).take k)
  rw [← status]
  constructor
  · rintro ⟨other, same, resumable⟩
    obtain rfl : next = other := Option.some.inj (present.symm.trans same)
    exact resumable
  · intro resumable
    exact ⟨next, present, resumable⟩

/-- The approvals left behind are those of before and those of the committed statements. -/
theorem someoneAsked_iff : SomeoneAsked row.id (crashed (.load row) behaviour escalationId k db) ↔
    SomeoneAsked row.id db ∨ ∃ approval ∈ rowsIn Row.approval?
      (settled ((program (.load row) behaviour escalationId).take k)), OpenFor row.id approval := by
  have rows : (crashed (.load row) behaviour escalationId k db).humanApprovals =
      db.humanApprovals ++ rowsIn Row.approval?
        (settled ((program (.load row) behaviour escalationId).take k)) :=
    approvals_grow.committed rfl
  unfold SomeoneAsked
  rw [rows]
  simp only [List.mem_append, or_and_right, exists_or]

/-- Before the commit of `mark_running` nothing is written. -/
theorem crashed_early (early : k < 2) : crashed (.load row) behaviour escalationId k db = db := by
  unfold crashed program
  split
  · obtain rfl | rfl : k = 0 ∨ k = 1 := by omega
    · rfl
    · rfl
  · rw [List.take_nil]
    rfl

/-- Between the start and the commit of the outcome a workflow survives by its approval only. -/
theorem survives_before (found : db.workflow row.id = some row)
    (supported : (WorkflowCopy.load row).supported = true) (started : 2 ≤ k)
    (before : k < (behaviour.statements row.id).length + 6) :
    Survives row.id (crashed (.load row) behaviour escalationId k db) ↔
      AskedInTime behaviour row.id k db := by
  obtain ⟨front, frontCases, cut⟩ :=
    settled_before behaviour escalationId supported started before
  have byAgent : ∀ statement ∈ settled (executed behaviour row.id k),
      statement.byAgent = true := by
    intro statement member
    exact statements_byAgent row.id behaviour statement
      (List.mem_of_mem_take (mem_of_settled member))
  have running : (copyAfter (.load row) front).status.current = .running := by
    rcases frontCases with rfl | rfl <;> rfl
  have noApproval : rowsIn Row.approval? front = [] := by
    rcases frontCases with rfl | rfl <;> rfl
  rw [survives_iff behaviour escalationId found, cut, copyAfter_append, agent_status byAgent,
    running]
  by_cases waiting : .waitForHuman ∈ settled (executed behaviour row.id k)
  · rw [if_pos waiting]
    show SomeoneAsked row.id _ ↔ _
    rw [someoneAsked_iff, cut, rowsIn_append, noApproval, List.nil_append]
    exact ⟨fun asked => ⟨waiting, asked⟩, fun asked => asked.2⟩
  · rw [if_neg waiting]
    exact ⟨fun never => never.elim, fun asked => absurd asked.1 waiting⟩

/-- Once the outcome is committed the workflow has survived. -/
theorem survives_after (found : db.workflow row.id = some row)
    (supported : (WorkflowCopy.load row).supported = true)
    (after : (behaviour.statements row.id).length + 6 ≤ k) :
    Survives row.id (crashed (.load row) behaviour escalationId k db) := by
  obtain ⟨records, inert, cut⟩ := settled_after behaviour escalationId supported after
  have silent : .waitForHuman ∉ records := fun member => (inert _ member).2 rfl
  obtain ⟨_, _, status⟩ := before_copy row (statements_byAgent row.id behaviour)
  rw [survives_iff behaviour escalationId found, cut, copyAfter_append,
    agent_status fun statement member => (inert statement member).1, if_neg silent,
    copyAfter_append]
  show Resumable row.id _ (finish _ behaviour.outcome).status.current
  rw [finish_status, status]
  cases behaviour with
  | raises steps cut exc =>
    show Resumable row.id _ (if _ then .pending else .failed)
    split <;> trivial
  | returns steps result =>
    by_cases waiting : .waitForHuman ∈ (Behaviour.returns steps result).statements row.id
    · simp only [Behaviour.outcome, if_pos waiting, if_true]
      obtain ⟨approval, member, isOpen⟩ := returns_asks waiting
      refine (someoneAsked_iff _ _).mpr (.inr ⟨approval, ?_, isOpen⟩)
      rw [cut, rowsIn_append, rowsIn_append, rowsIn_append]
      simp [member]
    · simp only [Behaviour.outcome, if_neg waiting]
      trivial

/-- A workflow survives a death before the first commit as it survives none, a death behind the
commit of the outcome always, and one in between exactly where its agent has asked in time. -/
theorem crash_point (found : db.workflow row.id = some row)
    (supported : (WorkflowCopy.load row).supported = true) :
    Survives row.id (crashed (.load row) behaviour escalationId k db) ↔
      (k < 2 ∧ Survives row.id db) ∨ (2 ≤ k ∧ AskedInTime behaviour row.id k db) ∨
        (behaviour.statements row.id).length + 6 ≤ k := by
  rcases Nat.lt_or_ge k 2 with early | started
  · rw [crashed_early behaviour escalationId early]
    constructor
    · intro survived
      exact .inl ⟨early, survived⟩
    · rintro (⟨_, survived⟩ | ⟨late, _⟩ | late)
      · exact survived
      · omega
      · omega
  · rcases Nat.lt_or_ge k ((behaviour.statements row.id).length + 6) with before | after
    · rw [survives_before behaviour escalationId found supported started before]
      constructor
      · intro asked
        exact .inr (.inl ⟨started, asked⟩)
      · rintro (⟨early, _⟩ | ⟨_, asked⟩ | late)
        · omega
        · exact asked
        · omega
    · have survived := survives_after behaviour escalationId found supported after
      exact ⟨fun _ => .inr (.inr after), fun _ => survived⟩

end Crash

section Sample

def sampleRow : Workflow := .new "w" "client_onboarding" "Onboard" (.object []) "api" 0

def sampleDb : CompanyDatabase := ⟨⟨[sampleRow], [], [], [], []⟩, [], [], []⟩

def sampleBehaviour : Behaviour := .returns [] (.object [])

theorem crash_point_sample :
    Survives sampleRow.id (crashed (.load sampleRow) sampleBehaviour "e" 2 sampleDb) ↔
      (2 < 2 ∧ Survives sampleRow.id sampleDb) ∨
        (2 ≤ 2 ∧ AskedInTime sampleBehaviour sampleRow.id 2 sampleDb) ∨
        (sampleBehaviour.statements sampleRow.id).length + 6 ≤ 2 :=
  crash_point sampleBehaviour "e" rfl (by decide)

/-- A death behind the first commit of `mark_running` leaves the workflow running, for good. -/
theorem running_for_good : ¬ ∀ (db : CompanyDatabase) (row : Workflow) (behaviour : Behaviour)
    (escalationId : String) (k : ℕ), db.workflow row.id = some row →
    (WorkflowCopy.load row).supported = true → row.status = .pending →
    Survives row.id (crashed (.load row) behaviour escalationId k db) := by
  intro law
  have found : sampleDb.workflow sampleRow.id = some sampleRow := rfl
  obtain ⟨row, left, resumable⟩ :=
    law sampleDb sampleRow sampleBehaviour "e" 2 found (by decide) rfl
  have running : ((crashed (.load sampleRow) sampleBehaviour "e" 2 sampleDb).workflow
      sampleRow.id).map Workflow.status = some .running := by decide
  rw [left, Option.map_some, Option.some.injEq] at running
  rw [running] at resumable
  exact resumable

end Sample

end BusinessOs.App.CrashPoints
