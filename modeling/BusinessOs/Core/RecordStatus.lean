/- Source: rust/src/orchestrator.rs, rust/src/state_machine.rs
   digest: A workflow record says what its status says, unless a success follows a failure. -/

import BusinessOs.Core.RetryRuns

set_option autoImplicit false
set_option relaxedAutoImplicit false

namespace BusinessOs.Core.RecordStatus

open BusinessOs.Lib.Execution BusinessOs.Lib.Json.Tree
open BusinessOs.Core.Types BusinessOs.Core.StateMachine BusinessOs.Core.Audit
open BusinessOs.Core.Dispatch BusinessOs.Core.RetryRuns

universe u

variable {ω : Type u}

/-- The result and the time of completion tell whether the workflow is completed. -/
structure Recorded (w : World ω) : Prop where
  completed : w.workflow.status = .completed →
    ∃ value, w.outcomes.getLast? = some (.ok value) ∧ w.workflow.result = some value ∧
      w.workflow.completedAt.isSome
  unfinished : w.workflow.status ≠ .completed →
    w.workflow.result = none ∧ w.workflow.completedAt = none

/-- The record agrees with its status: in `Completed` it also holds no error. -/
structure Agrees (w : World ω) : Prop where
  recorded : Recorded w
  error : w.workflow.status = .completed → w.workflow.error = none

/-- The agent succeeds only on a workflow that holds no error. -/
def CleanSuccess (w : World ω) (e : Event ω) : Prop :=
  ∀ world r value, e = .runWorkflow world r →
    w.orchestrator.invocation w.workflow world r = some (.ok value) → w.workflow.error = none

/-! ### One call -/

theorem settle_ok (o : Orchestrator ω) {workflow : Workflow} (running : workflow.status = .running)
    (r : Readings) (value : Value) :
    (o.settle workflow r (.ok value)).2.1 =
      { workflow with
        status := .completed
        updatedAt := r.settled
        result := some value
        completedAt := some r.completedAt } := by
  have completed : markCompleted workflow value r.settled r.completedAt = .ok
      { workflow with
        status := .completed
        updatedAt := r.settled
        result := some value
        completedAt := some r.completedAt } := by
    simp [markCompleted, transition, running, canTransition]
  simp only [Orchestrator.settle, completed]

/-- A failure leaves the workflow pending or failed, and touches neither result nor completion. -/
theorem settle_error (o : Orchestrator ω) {workflow : Workflow}
    (running : workflow.status = .running) (r : Readings) (message : String) :
    (o.settle workflow r (.error message)).2.1.status ≠ .completed ∧
      (o.settle workflow r (.error message)).2.1.result = workflow.result ∧
      (o.settle workflow r (.error message)).2.1.completedAt = workflow.completedAt := by
  have failed : markFailed workflow ("agent error: " ++ message) r.settled = .ok
      { workflow with
        status := .failed
        updatedAt := r.settled
        error := some ("agent error: " ++ message) } := by
    simp [markFailed, transition, running, canTransition]
  by_cases last : workflow.maxAttempts ≤ workflow.attempts
  · simp [Orchestrator.settle, failed, Orchestrator.shouldRetry, last]
  · simp [Orchestrator.settle, failed, Orchestrator.shouldRetry, last, retry, transition,
      canTransition]

/-- What one `run_workflow` leaves of the record. -/
inductive Ran (s : World ω) (world : ω) (r : Readings) (t : World ω) : Prop
  | succeeded (value : Value) (before : s.workflow.status ≠ .completed)
      (answer : s.orchestrator.invocation s.workflow world r = some (.ok value))
      (outcomes : t.outcomes = s.outcomes ++ [.ok value])
      (status : t.workflow.status = .completed) (result : t.workflow.result = some value)
      (completedAt : t.workflow.completedAt = some r.completedAt)
      (error : t.workflow.error = s.workflow.error)
  | failed (message : String) (before : s.workflow.status ≠ .completed)
      (answer : s.orchestrator.invocation s.workflow world r = some (.error message))
      (status : t.workflow.status ≠ .completed) (result : t.workflow.result = s.workflow.result)
      (completedAt : t.workflow.completedAt = s.workflow.completedAt)
  | refused (silent : s.orchestrator.invocation s.workflow world r = none)
      (same : t.workflow = s.workflow) (outcomes : t.outcomes = s.outcomes)

theorem runWorkflow_ran (s : World ω) (world : ω) (r : Readings) :
    Ran s world r (perform s (.runWorkflow world r)) := by
  rcases dispatch_cases s.orchestrator s.workflow r with ⟨can, agent, _, reached⟩ | ⟨_, e, refused⟩
  · have before : s.workflow.status ≠ .completed := by
      intro completed
      simp [completed, canTransition] at can
    have answer : s.orchestrator.invocation s.workflow world r =
        some (agent.run world (running s.workflow r.running) .new).2 := by
      simp only [Orchestrator.invocation, reached]
    have next : (perform s (.runWorkflow world r)).workflow =
        ((started s.orchestrator s.workflow r.started).settle (running s.workflow r.running) r
          (agent.run world (running s.workflow r.running) .new).2).2.1 := by
      simp only [perform, Orchestrator.runWorkflow, reached]
    have outcomes : (perform s (.runWorkflow world r)).outcomes =
        s.outcomes ++ [(agent.run world (running s.workflow r.running) .new).2] := by
      simp only [perform, answer, Option.toList_some]
    cases outcome : (agent.run world (running s.workflow r.running) .new).2 with
    | ok value =>
      rw [outcome] at answer next outcomes
      rw [settle_ok _ rfl] at next
      exact .succeeded value before answer outcomes (by rw [next]) (by rw [next]) (by rw [next])
        (by rw [next, running])
    | error message =>
      rw [outcome] at answer next
      have runs : (running s.workflow r.running).status = .running := rfl
      obtain ⟨status, result, completedAt⟩ :=
        settle_error (started s.orchestrator s.workflow r.started) runs r message
      rw [← next] at status result completedAt
      exact .failed message before answer status result completedAt
  · have silent : s.orchestrator.invocation s.workflow world r = none := by
      simp only [Orchestrator.invocation, refused]
    refine .refused silent ?_ ?_
    · simp only [perform, Orchestrator.runWorkflow, refused]
    · simp only [perform, silent, Option.toList_none, List.append_nil]

section Steps

variable {s t : World ω}

theorem Recorded.of_same (h : Recorded s) (same : t.workflow = s.workflow)
    (outcomes : t.outcomes = s.outcomes) : Recorded t := by
  constructor
  · rw [same, outcomes]
    exact h.completed
  · rw [same]
    exact h.unfinished

theorem Recorded.ran {world : ω} {r : Readings} (h : Recorded s) (ran : Ran s world r t) :
    Recorded t := by
  cases ran with
  | succeeded value before answer outcomes status result completedAt error =>
    refine ⟨fun _ => ⟨value, ?_, result, ?_⟩, fun unfinished => absurd status unfinished⟩
    · rw [outcomes, List.getLast?_concat]
    · rw [completedAt, Option.isSome_some]
  | failed message before answer status result completedAt =>
    refine ⟨fun completed => absurd completed status, fun _ => ?_⟩
    rw [result, completedAt]
    exact h.unfinished before
  | refused silent same outcomes => exact h.of_same same outcomes

/-- Cancelling takes an unfinished workflow to another unfinished status. -/
theorem cancel_record (s : World ω) (now : ℤ) :
    perform s (.markCancelled now) = s ∨
      (s.workflow.status ≠ .completed ∧
        (perform s (.markCancelled now)).workflow.status ≠ .completed ∧
        (perform s (.markCancelled now)).workflow.result = s.workflow.result ∧
        (perform s (.markCancelled now)).workflow.completedAt = s.workflow.completedAt) := by
  cases cancel : markCancelled s.workflow now with
  | error e => exact .inl (by simp only [perform, cancel])
  | ok workflow =>
    obtain ⟨before, _, rfl⟩ := markCancelled_ok cancel
    refine .inr ⟨before, ?_⟩
    simp [perform, cancel]

theorem Recorded.step {e : Event ω} (h : Recorded s) (step : Step s e t) : Recorded t := by
  obtain ⟨_, rfl⟩ := step
  cases e with
  | runWorkflow world r => exact h.ran (runWorkflow_ran s world r)
  | markCancelled now =>
    rcases cancel_record s now with same | ⟨before, after, result, completedAt⟩
    · rw [same]
      exact h
    · refine ⟨fun completed => absurd completed after, fun _ => ?_⟩
      rw [result, completedAt]
      exact h.unfinished before
  | submitOther kind payload source uuid now stamp => exact h.of_same rfl rfl
  | runOther workflow world r => exact h.of_same rfl rfl

theorem Agrees.of_unfinished (h : Recorded s) (unfinished : s.workflow.status ≠ .completed) :
    Agrees s :=
  ⟨h, fun completed => absurd completed unfinished⟩

/-- A call that leaves the record alone is no success of the agent. -/
theorem agrees_same {e : Event ω} (h : Recorded s) (same : t.workflow = s.workflow)
    (outcomes : t.outcomes = s.outcomes) (clean : CleanSuccess s e) :
    Agrees t ↔ Agrees s ∧ CleanSuccess s e := by
  have after := h.of_same same outcomes
  constructor
  · rintro ⟨_, error⟩
    rw [same] at error
    exact ⟨⟨h, error⟩, clean⟩
  · rintro ⟨⟨_, error⟩, _⟩
    rw [← same] at error
    exact ⟨after, error⟩

theorem step_agrees {e : Event ω} (h : Recorded s) (step : Step s e t) :
    Agrees t ↔ Agrees s ∧ CleanSuccess s e := by
  have after := h.step step
  obtain ⟨_, rfl⟩ := step
  cases e with
  | runWorkflow world r =>
    cases runWorkflow_ran s world r with
    | succeeded value before answer outcomes status result completedAt error =>
      constructor
      · rintro ⟨_, none⟩
        have clean := none status
        rw [error] at clean
        exact ⟨.of_unfinished h before, fun _ _ _ _ _ => clean⟩
      · rintro ⟨_, clean⟩
        refine ⟨after, fun _ => ?_⟩
        rw [error]
        exact clean world r value rfl answer
    | failed message before answer status result completedAt =>
      refine ⟨fun _ => ⟨.of_unfinished h before, ?_⟩, fun _ => .of_unfinished after status⟩
      intro world' r' value same answer'
      obtain ⟨rfl, rfl⟩ := Event.runWorkflow.inj same
      rw [answer] at answer'
      simp at answer'
    | refused silent same outcomes =>
      refine agrees_same h same outcomes ?_
      intro world' r' value same answer'
      obtain ⟨rfl, rfl⟩ := Event.runWorkflow.inj same
      rw [silent] at answer'
      simp at answer'
  | markCancelled now =>
    have clean : CleanSuccess s (.markCancelled now) := fun _ _ _ same _ => by simp at same
    rcases cancel_record s now with same | ⟨before, unfinished, _⟩
    · rw [same]
      exact agrees_same h rfl rfl clean
    · exact ⟨fun _ => ⟨.of_unfinished h before, clean⟩, fun _ => .of_unfinished after unfinished⟩
  | submitOther kind payload source uuid now stamp =>
    exact agrees_same h rfl rfl fun _ _ _ same _ => by simp at same
  | runOther workflow world r => exact agrees_same h rfl rfl fun _ _ _ same _ => by simp at same

end Steps

/-- After every call the record of a submitted workflow agrees with its status exactly when no
success of the agent has met the error of an earlier attempt. -/
theorem record_agrees_iff (o : Orchestrator ω) (kind : WorkflowKind) (payload : Value)
    (source uuid : String) (now : ℤ) (stamp : Stamp) (es : List (Event ω)) (t : World ω)
    (run : Run Step (submitted o kind payload source uuid now stamp) es t) :
    Agrees t ↔
      Run (Guarded CleanSuccess Step) (submitted o kind payload source uuid now stamp) es t := by
  have unfinished : (submitted o kind payload source uuid now stamp).workflow.status ≠
      .completed := by
    simp [submitted, Orchestrator.submitWorkflow]
  have start : Recorded (submitted o kind payload source uuid now stamp) :=
    ⟨fun completed => absurd completed unfinished, fun _ => ⟨rfl, rfl⟩⟩
  have keep : ∀ (s : World ω) e t, Recorded s → Step s e t → Recorded t :=
    fun s e t h step => h.step step
  have stepwise : ∀ (s : World ω) e t, Recorded s → Step s e t →
      (Agrees t ↔ Agrees s ∧ CleanSuccess s e) :=
    fun s e t h step => step_agrees h step
  rw [run.exactly_guarded keep stepwise start]
  exact ⟨fun both => both.2, fun guarded => ⟨.of_unfinished start unfinished, guarded⟩⟩

/-- A first failure and a success on the retry. -/
def retriedEvents : List (Event (Except String Value)) :=
  [.runWorkflow (.error "timeout") sampleReadings, .runWorkflow (.ok .null) sampleReadings]

/-- The completed workflow still holds the error of its first attempt. -/
theorem record_agrees_retried :
    Run Step sampleStart retriedEvents (retriedEvents.foldl perform sampleStart) ∧
      (retriedEvents.foldl perform sampleStart).workflow.status = .completed ∧
      (retriedEvents.foldl perform sampleStart).workflow.error = some "agent error: timeout" ∧
      ¬ Agrees (retriedEvents.foldl perform sampleStart) := by
  have status : (retriedEvents.foldl perform sampleStart).workflow.status = .completed := by decide
  have error : (retriedEvents.foldl perform sampleStart).workflow.error =
      some "agent error: timeout" := by
    decide
  refine ⟨run_perform (by decide), status, error, fun agrees => ?_⟩
  have none := agrees.error status
  rw [error] at none
  simp at none

/-- Without a failure before it, the success leaves a record that agrees. -/
theorem record_agrees_first_try :
    Agrees (perform sampleStart (.runWorkflow (.ok .null) sampleReadings)) := by
  have step : Step sampleStart (.runWorkflow (.ok .null) sampleReadings)
      (perform sampleStart (.runWorkflow (.ok .null) sampleReadings)) := ⟨by decide, rfl⟩
  have clean : CleanSuccess sampleStart (.runWorkflow (.ok .null) sampleReadings) :=
    fun _ _ _ _ _ => rfl
  exact (record_agrees_iff sampleOrchestrator .financeOperations .null "webhook" "a" 0 ⟨"c1", 0⟩ _ _
    (.single step)).mpr (.single ⟨clean, step⟩)

end BusinessOs.Core.RecordStatus
