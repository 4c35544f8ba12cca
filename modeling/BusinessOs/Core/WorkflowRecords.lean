/- Source: rust/src/state_machine.rs (WorkflowStateMachine)
   digest: A workflow's record under the methods of its state machine: what its status says of its
     result, its error and its instants, and what stays. -/

import BusinessOs.Core.WorkflowTraces

set_option autoImplicit false
set_option relaxedAutoImplicit false

namespace BusinessOs.Core.WorkflowRecords

open BusinessOs.Lib.Chrono BusinessOs.Lib.Execution BusinessOs.Lib.Json.Tree
open BusinessOs.Lib.Transitions BusinessOs.Core.Types BusinessOs.Core.StateMachine
open BusinessOs.Core.Machines BusinessOs.Core.AttemptCounts BusinessOs.Core.WorkflowTraces

/-- The reading of the clock for `updated_at`. -/
def updateOf : AttemptCounts.Call → ℤ
  | .markRunning now | .markCompleted _ now _ | .markFailed _ now | .markWaitingForHuman now
  | .markCancelled now | .retry now => now

/-- The last reading of the clock. -/
def lastOf : AttemptCounts.Call → ℤ
  | .markCompleted _ _ completedAt => completedAt
  | call => updateOf call

/-- What a workflow's record says, `created` being the time of its creation. -/
structure Law (id : String) (maxAttempts : UInt32) (created : ℤ) (workflow : Workflow)
    (clock : ℤ) : Prop where
  /-- What the machine does not touch. -/
  rest : { workflow with
      status := .pending
      result := none
      error := none
      attempts := 0
      updatedAt := created
      completedAt := none } = Workflow.new id maxAttempts created
  result : workflow.result.isSome ↔ workflow.status = .completed
  completed : workflow.completedAt.isSome ↔ workflow.status = .completed
  /-- Without an error there was no failure, and then no retry. -/
  unfailed : workflow.error = none →
    workflow.status ≠ .failed ∧ (workflow.status = .pending → workflow.attempts = 0)
  updated : created ≤ workflow.updatedAt ∧ workflow.updatedAt ≤ clock
  until_ : ∀ b ∈ workflow.completedAt, workflow.updatedAt ≤ b ∧ b ≤ clock

section Steps

variable {id : String} {maxAttempts : UInt32} {created clock : ℤ} {workflow next : Workflow}
  {call : AttemptCounts.Call}

theorem unfinished_of_can {target : WorkflowStatus}
    (allowed : canTransition workflow.status target = true) : workflow.status ≠ .completed := by
  intro completed
  rw [completed] at allowed
  cases allowed

/-- A step that does not complete the workflow. -/
theorem Law.moved (law : Law id maxAttempts created workflow clock)
    (unfinished : workflow.status ≠ .completed) {status : WorkflowStatus} {error : Option String}
    {attempts : UInt32} {now : ℤ} (later : clock ≤ now) (ongoing : status ≠ .completed)
    (told : error = none → status ≠ .failed ∧ status ≠ .pending) :
    Law id maxAttempts created { workflow with status, error, attempts, updatedAt := now } now := by
  have ⟨lower, upper⟩ := law.updated
  have none_ : workflow.completedAt = none := by
    have some_ := mt law.completed.mp unfinished
    simpa using some_
  refine ⟨law.rest, ?_, ?_, fun absent => ?_, ⟨?_, Int.le_refl now⟩, ?_⟩
  · exact iff_of_false (mt law.result.mp unfinished) ongoing
  · exact iff_of_false (mt law.completed.mp unfinished) ongoing
  · exact ⟨(told absent).1, fun pending => absurd pending (told absent).2⟩
  · exact Int.le_trans lower (Int.le_trans upper later)
  · intro b member
    have member : b ∈ workflow.completedAt := member
    rw [none_] at member
    cases member

theorem law_step (law : Law id maxAttempts created workflow clock)
    (made : methods.call workflow call = .ok next) (later : clock ≤ updateOf call)
    (order : updateOf call ≤ lastOf call) : Law id maxAttempts created next (lastOf call) := by
  have ⟨lower, upper⟩ := law.updated
  cases call with
  | markRunning now =>
    obtain ⟨running, moves, rest⟩ := bind_eq_ok made
    obtain ⟨allowed, rfl⟩ := transition_ok moves
    obtain rfl := Except.ok.inj rest
    exact law.moved (unfinished_of_can allowed) later (by simp) (by simp)
  | markCompleted result now completedAt =>
    obtain ⟨completed, moves, rest⟩ := bind_eq_ok made
    obtain ⟨allowed, rfl⟩ := transition_ok moves
    obtain rfl := Except.ok.inj rest
    refine ⟨law.rest, by simp, by simp, by simp, ⟨?_, order⟩, ?_⟩
    · exact Int.le_trans lower (Int.le_trans upper later)
    · intro b member
      obtain rfl := Option.some.inj member
      exact ⟨order, Int.le_refl _⟩
  | markFailed error now =>
    obtain ⟨failed, moves, rest⟩ := bind_eq_ok made
    obtain ⟨allowed, rfl⟩ := transition_ok moves
    obtain rfl := Except.ok.inj rest
    exact law.moved (unfinished_of_can allowed) later (by simp) (by simp)
  | markWaitingForHuman now =>
    obtain ⟨allowed, rfl⟩ := transition_ok made
    exact law.moved (unfinished_of_can allowed) later (by simp) (by simp)
  | markCancelled now =>
    obtain ⟨unfinished, live, rfl⟩ := markCancelled_ok made
    exact law.moved unfinished later (by simp) (by simp)
  | retry now =>
    unfold methods attempt retry at made
    dsimp only at made
    split_ifs at made with used
    obtain ⟨allowed, rfl⟩ := transition_ok made
    refine law.moved (unfinished_of_can allowed) later (by simp) fun absent => ?_
    -- Only a failed workflow is retried, and it has its error.
    have failed : workflow.status = .failed := by
      cases status : workflow.status <;> rw [status] at allowed <;> first | rfl | cases allowed
    exact absurd failed (law.unfailed absent).1

/-- A method never takes an error back. -/
theorem method_error (made : methods.call workflow call = .ok next)
    (failed : workflow.error.isSome) : next.error.isSome := by
  cases call with
  | markRunning now | markCompleted result now completedAt =>
    obtain ⟨moved, moves, rest⟩ := bind_eq_ok made
    obtain ⟨_, rfl⟩ := transition_ok moves
    obtain rfl := Except.ok.inj rest
    exact failed
  | markFailed error now =>
    obtain ⟨moved, moves, rest⟩ := bind_eq_ok made
    obtain rfl := Except.ok.inj rest
    rfl
  | markWaitingForHuman now =>
    obtain ⟨_, rfl⟩ := transition_ok made
    exact failed
  | markCancelled now =>
    obtain ⟨_, _, rfl⟩ := markCancelled_ok made
    exact failed
  | retry now =>
    unfold methods attempt retry at made
    dsimp only at made
    split_ifs at made with used
    obtain ⟨_, rfl⟩ := transition_ok made
    exact failed

end Steps

/-- A workflow's record in every run of the methods: it has a result and an instant of completion
exactly while it is completed, an error from its first failure on, and instants in their order;
nothing else changes, and a workflow that is over does not change at all. -/
theorem workflow_record_law (id : String) (maxAttempts : UInt32) (created : ℤ)
    {calls : List AttemptCounts.Call} {w : Clocked Workflow ℤ}
    (run : Run (methods.Step updateOf lastOf) ⟨.new id maxAttempts created, created⟩ calls w) :
    Law id maxAttempts created w.record w.clock ∧
    ∀ (later : List AttemptCounts.Call) (z : Clocked Workflow ℤ),
      Run (methods.Step updateOf lastOf) w later z →
        (w.record.error.isSome → z.record.error.isSome) ∧
        (isTerminal w.record.status = true → z.record = w.record) := by
  refine ⟨Calls.Step.law run (fun _ _ _ _ => law_step) ?_,
    fun later z after => ⟨fun failed => ?_, ?_⟩⟩
  · refine ⟨rfl, ?_, ?_, ?_, ⟨Int.le_refl created, Int.le_refl created⟩, ?_⟩ <;>
      simp [Workflow.new]
  · refine after.invariant (I := fun w => w.record.error.isSome = true) ?_ failed
    intro s c t before step
    cases step with
    | taken made later order => exact method_error made before
    | refused made => exact before
  · intro terminal
    have ends := (exec_end_iff w.record.status).mpr terminal
    exact methods_exact.absorbed (fun t edge => ends t.status edge.step) after

/-- A workflow that has failed once and is completed. -/
def sampleDone : Clocked Workflow ℤ where
  record :=
    { Workflow.new "wf" 2 0 with
      status := .completed
      result := some .null
      error := some "boom"
      attempts := 2
      updatedAt := 5
      completedAt := some 6 }
  clock := 6

theorem workflow_record_law_retried : ∃ z,
    Run (methods.Step updateOf lastOf) ⟨.new "wf" 2 0, 0⟩
      [.markRunning 1, .markFailed "boom" 2, .retry 3, .markRunning 4, .markCompleted .null 5 6]
      sampleDone ∧
    Run (methods.Step updateOf lastOf) sampleDone [.markCancelled 7] z ∧
      z.record = sampleDone.record := by
  have run : Run (methods.Step updateOf lastOf) ⟨.new "wf" 2 0, 0⟩
      [.markRunning 1, .markFailed "boom" 2, .retry 3, .markRunning 4, .markCompleted .null 5 6]
      sampleDone :=
    .cons (.taken rfl (by decide) (by decide)) (.cons (.taken rfl (by decide) (by decide))
      (.cons (.taken rfl (by decide) (by decide)) (.cons (.taken rfl (by decide) (by decide))
        (.single (.taken rfl (by decide) (by decide))))))
  have late : Run (methods.Step updateOf lastOf) sampleDone [.markCancelled 7] sampleDone :=
    .single (.refused rfl)
  exact ⟨_, run, late, ((workflow_record_law "wf" 2 0 run).2 _ _ late).2 rfl⟩

end BusinessOs.Core.WorkflowRecords
