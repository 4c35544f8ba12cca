/- Source: rust/src/state_machine.rs (TaskStateMachine), rust/src/types.rs (AgentTask::new)
   digest: A task's record under the calls of its state machine: its traces, its instants, and what
     stays. -/

import BusinessOs.Core.Machines
import BusinessOs.Lib.Transitions

set_option autoImplicit false
set_option relaxedAutoImplicit false

namespace BusinessOs.Core.TaskRuns

open BusinessOs.Lib.Execution BusinessOs.Lib.Json.Tree BusinessOs.Lib.Transitions
open BusinessOs.Core.Types BusinessOs.Core.StateMachine BusinessOs.Core.Machines

/-- `AgentTask::new`, with its defaults. -/
def newTask (id workflowId : String) (now : ℤ) : AgentTask where
  id
  workflowId
  agentName := ""
  toolName := ""
  status := .queued
  input := .null
  output := none
  error := none
  startedAt := none
  completedAt := none
  durationMs := none
  updatedAt := now

/-- `TaskStateMachine::can_transition`. -/
def canTransitionTask : TaskStatus → TaskStatus → Bool
  | .queued, target => target == .running
  | .running, target => target == .completed || target == .failed || target == .escalated
  | .escalated, target => target == .running
  | .completed, _ => false
  | .failed, _ => false

/-- The record behind a transition: `updated_at` is one reading of the clock, the rest another. -/
def moved (task : AgentTask) (target : TaskStatus) (updatedAt now : ℤ) : AgentTask :=
  { task with
    status := target
    updatedAt
    startedAt := if target = .running ∧ task.startedAt = none then some now else task.startedAt
    completedAt := if target = .completed ∨ target = .failed then some now else task.completedAt }

/-- `TaskStateMachine::transition`. -/
def transitionTask (task : AgentTask) (target : TaskStatus) (updatedAt now : ℤ) :
    Except TransitionError AgentTask :=
  if canTransitionTask task.status target then .ok (moved task target updatedAt now)
  else .error (.invalidTaskTransition task.status target)

structure Call where
  target : TaskStatus
  updatedAt : ℤ
  now : ℤ

def calls : Calls AgentTask Call TransitionError TaskStatus where
  state := AgentTask.status
  call task c := transitionTask task c.target c.updatedAt c.now

def TaskStep (a b : TaskStatus) : Prop := taskStepB a b = true

instance (a b : TaskStatus) : Decidable (TaskStep a b) := inferInstanceAs (Decidable (_ = true))

theorem canTransitionTask_eq (a b : TaskStatus) : canTransitionTask a b = taskStepB a b := by
  cases a <;> cases b <;> rfl

theorem transitionTask_ok {task next : AgentTask} {target : TaskStatus} {updatedAt now : ℤ}
    (made : transitionTask task target updatedAt now = .ok next) :
    TaskStep task.status target ∧ next = moved task target updatedAt now := by
  unfold transitionTask at made
  split_ifs at made with allowed
  rw [canTransitionTask_eq] at allowed
  exact ⟨allowed, (Except.ok.inj made).symm⟩

theorem calls_exact : calls.Exact TaskStep where
  sound task c next made := by
    obtain ⟨step, rfl⟩ := transitionTask_ok made
    exact step
  complete task target step := by
    rw [TaskStep, ← canTransitionTask_eq] at step
    exact ⟨⟨target, 0, 0⟩, _, if_pos step, rfl⟩

/-- A task that is over. -/
def Done (status : TaskStatus) : Prop := status = .completed ∨ status = .failed

theorem step_end {a : TaskStatus} (done : Done a) (b : TaskStatus) : ¬ TaskStep a b := by
  rcases done with rfl | rfl <;> cases b <;> decide

/-- What a task's record says, `created` being the time of its creation. -/
structure Law (id workflowId : String) (created : ℤ) (task : AgentTask) (clock : ℤ) : Prop where
  /-- What the machine does not touch. -/
  rest : { task with
      status := .queued
      startedAt := none
      completedAt := none
      updatedAt := created } = newTask id workflowId created
  started : task.startedAt = none ↔ task.status = .queued
  completed : task.completedAt.isSome ↔ Done task.status
  updated : created ≤ task.updatedAt ∧ task.updatedAt ≤ clock
  since : ∀ a ∈ task.startedAt, created ≤ a ∧ a ≤ clock
  until_ : ∀ b ∈ task.completedAt, (∀ a ∈ task.startedAt, a ≤ b) ∧ task.updatedAt ≤ b ∧ b ≤ clock

/-- A status that ends a task. -/
def ends (status : TaskStatus) : Bool := status == .completed || status == .failed

/-- The instants of a task's record, by the calls that succeeded: the first one that led to
`running`, the one that led to an end, and the last one of all. -/
structure Told (created : ℤ) (made : List Call) (task : AgentTask) : Prop where
  started : task.startedAt = (made.find? fun c => c.target == .running).map Call.now
  completed : task.completedAt = ((made.filter fun c => ends c.target).getLast?).map Call.now
  updated : task.updatedAt = (made.getLast?.map Call.updatedAt).getD created

section Told

variable {task : AgentTask} {s t : Clocked AgentTask ℤ} {cs : List Call}

theorem told_started (run : Run (calls.Step Call.updatedAt Call.now) s cs t) :
    t.record.startedAt = s.record.startedAt.or
      (((calls.taken s.record cs).find? fun c => c.target == .running).map Call.now) := by
  refine Calls.Step.told AgentTask.startedAt
    (fun a made => a.or ((made.find? fun c => c.target == .running).map Call.now))
    run (by simp) fun task next c rest made => ?_
  obtain ⟨_, rfl⟩ := transitionTask_ok made
  cases started : task.startedAt with
  | some a => simp [moved, started]
  | none =>
    by_cases running : c.target = .running
    · simp [moved, started, running]
    · simp [moved, started, running]

theorem told_completed (run : Run (calls.Step Call.updatedAt Call.now) s cs t) :
    t.record.completedAt = ((((calls.taken s.record cs).filter fun c =>
      ends c.target).getLast?).map Call.now).or s.record.completedAt := by
  refine Calls.Step.told AgentTask.completedAt
    (fun a made => (((made.filter fun c => ends c.target).getLast?).map Call.now).or a)
    run (by simp) fun task next c rest made => ?_
  obtain ⟨_, rfl⟩ := transitionTask_ok made
  by_cases over_ : c.target = .completed ∨ c.target = .failed
  · have taken : ends c.target = true := by simpa [ends] using over_
    cases later : (rest.filter fun c => ends c.target).getLast? with
    | none => simp [moved, over_, taken, later, List.getLast?_cons]
    | some last => simp [moved, taken, later, List.getLast?_cons]
  · have left : ends c.target = false := by simpa [ends] using over_
    simp [moved, over_, left]

theorem told_updated (run : Run (calls.Step Call.updatedAt Call.now) s cs t) :
    t.record.updatedAt =
      ((calls.taken s.record cs).getLast?.map Call.updatedAt).getD s.record.updatedAt := by
  refine Calls.Step.told AgentTask.updatedAt
    (fun a made => (made.getLast?.map Call.updatedAt).getD a)
    run (by simp) fun task next c rest made => ?_
  obtain ⟨_, rfl⟩ := transitionTask_ok made
  cases later : rest.getLast? with
  | none => simp [moved, later, List.getLast?_cons]
  | some last => simp [later, List.getLast?_cons]

end Told

/-- A task has an instant at which it first ran exactly from then on. -/
theorem step_from {a b : TaskStatus} (step : TaskStep a b) :
    (b = .running ∧ (a = .queued ∨ a = .escalated)) ∨
      (a = .running ∧ b ≠ .queued ∧ b ≠ .running) := by
  cases a <;> cases b <;> first | exact absurd step (by decide) | decide

theorem law_step {id workflowId : String} {created : ℤ} {task next : AgentTask} {clock : ℤ}
    {c : Call} (law : Law id workflowId created task clock) (made : calls.call task c = .ok next)
    (later : clock ≤ c.updatedAt) (order : c.updatedAt ≤ c.now) :
    Law id workflowId created next c.now := by
  obtain ⟨step, rfl⟩ := transitionTask_ok made
  obtain ⟨target, updatedAt, now⟩ := c
  have ⟨lower, upper⟩ := law.updated
  have updated : created ≤ updatedAt := Int.le_trans lower (Int.le_trans upper later)
  change clock ≤ updatedAt at later
  change updatedAt ≤ now at order
  have unfinished : task.completedAt = none := by
    cases completed : task.completedAt with
    | none => rfl
    | some b =>
      have done := law.completed.mp (by rw [completed]; rfl)
      exact absurd step (step_end done _)
  rcases step_from step with ⟨rfl, before⟩ | ⟨before, forth, back⟩
  · -- The task comes to run, for the first time or again.
    cases started : task.startedAt with
    | none =>
      refine ⟨law.rest, ?_, ?_, ⟨updated, order⟩, ?_, ?_⟩
      · simp [moved, started]
      · simp [moved, unfinished, Done]
      · intro a member
        simp [moved, started] at member
        show created ≤ a ∧ a ≤ now
        omega
      · intro b member
        simp [moved, unfinished] at member
    | some a =>
      have since := law.since a started
      refine ⟨law.rest, ?_, ?_, ⟨updated, order⟩, ?_, ?_⟩
      · simp [moved, started]
      · simp [moved, unfinished, Done]
      · intro a member
        simp [moved, started] at member
        show created ≤ a ∧ a ≤ now
        omega
      · intro b member
        simp [moved, unfinished] at member
  · obtain ⟨a, started⟩ : ∃ a, task.startedAt = some a := by
      refine Option.ne_none_iff_exists'.mp fun missing => ?_
      have queued := law.started.mp missing
      rw [before] at queued
      cases queued
    have since := law.since a started
    refine ⟨law.rest, ?_, ?_, ⟨updated, order⟩, ?_, ?_⟩
    · simp [moved, started, forth]
    · simp only [moved, unfinished, Done]
      split_ifs with done
      · simp [done]
      · simp [done]
    · intro a member
      simp [moved, started, back] at member
      show created ≤ a ∧ a ≤ now
      omega
    · intro b member
      simp only [moved, unfinished] at member
      split_ifs at member with done
      · obtain rfl := Option.some.inj member
        refine ⟨fun a member => ?_, order, Int.le_refl now⟩
        simp [moved, started, back] at member
        omega
      · cases member

/-- A task's record in every run: its instants are those of the first call that made it run, of the
call that ended it and of the last one that succeeded; they are set as the status says and in their
order, and nothing else changes. Later calls do not move the instant at which the task first ran,
and change nothing of a task that is over. Its traces are the paths of the abstract machine. -/
theorem task_record_law (id workflowId : String) (created : ℤ) {cs : List Call}
    {w : Clocked AgentTask ℤ}
    (run : Run (calls.Step Call.updatedAt Call.now) ⟨newTask id workflowId created, created⟩ cs w) :
    Law id workflowId created w.record w.clock ∧
    Told created (calls.taken (newTask id workflowId created) cs) w.record ∧
    (∀ (later : List Call) (z : Clocked AgentTask ℤ),
      Run (calls.Step Call.updatedAt Call.now) w later z →
        (∀ a ∈ w.record.startedAt, z.record.startedAt = some a) ∧
        (Done w.record.status → z.record = w.record)) ∧
    ∀ path, (∃ cs, calls.trace (newTask id workflowId created) cs = path) ↔
      List.IsChain TaskStep (.queued :: path) := by
  refine ⟨Calls.Step.law run (fun _ _ _ _ => law_step) ?_, ⟨?_, ?_, told_updated run⟩, ?_,
    fun path => calls_exact.traces _ path⟩
  · refine ⟨rfl, ?_, ?_, ⟨Int.le_refl created, Int.le_refl created⟩, ?_, ?_⟩ <;>
      simp [newTask, Done]
  · rw [told_started run]
    rfl
  · rw [told_completed run]
    exact Option.or_none
  · intro later z after
    refine ⟨fun a member => ?_, fun done => calls_exact.absorbed (step_end done) after⟩
    refine after.invariant (I := fun w => w.record.startedAt = some a) ?_ member
    intro s c t kept step
    cases step with
    | @taken task next clock c made later order =>
      obtain ⟨_, rfl⟩ := transitionTask_ok made
      have kept : task.startedAt = some a := kept
      simp [moved, kept]
    | refused made => exact kept

/-- A task runs, is escalated, is taken up again and completes. -/
theorem task_record_law_escalated : ∃ started done,
    Run (calls.Step Call.updatedAt Call.now) ⟨newTask "t" "w" 0, 0⟩ [⟨.running, 1, 2⟩] started ∧
    Run (calls.Step Call.updatedAt Call.now) started
      [⟨.escalated, 3, 3⟩, ⟨.running, 4, 5⟩, ⟨.completed, 6, 7⟩] done ∧
    done.record.startedAt = some 2 ∧ done.record.status = .completed := by
  have first : Run (calls.Step Call.updatedAt Call.now) ⟨newTask "t" "w" 0, 0⟩ [⟨.running, 1, 2⟩]
      ⟨moved (newTask "t" "w" 0) .running 1 2, 2⟩ := .single (.taken rfl (by decide) (by decide))
  have second : Run (calls.Step Call.updatedAt Call.now)
      ⟨moved (newTask "t" "w" 0) .running 1 2, 2⟩
      [⟨.escalated, 3, 3⟩, ⟨.running, 4, 5⟩, ⟨.completed, 6, 7⟩] _ :=
    .cons (.taken rfl (by decide) (by decide)) (.cons (.taken rfl (by decide) (by decide))
      (.single (.taken rfl (by decide) (by decide))))
  have kept := (task_record_law "t" "w" 0 first).2.2.1 _ _ second
  exact ⟨_, _, first, second, kept.1 2 rfl, rfl⟩

end BusinessOs.Core.TaskRuns
