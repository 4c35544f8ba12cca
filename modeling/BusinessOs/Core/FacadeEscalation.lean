/- Source: rust/src/pipeline.rs, rust/src/orchestrator.rs
   digest: Which failed submissions the façade escalates, and which it loses. -/

import BusinessOs.Core.Facade
import BusinessOs.Core.RetryRuns

set_option autoImplicit false
set_option relaxedAutoImplicit false

namespace BusinessOs.Core.FacadeEscalation

open BusinessOs.Lib.Execution BusinessOs.Lib.Json.Tree
open BusinessOs.Core.Types BusinessOs.Core.StateMachine BusinessOs.Core.Audit
open BusinessOs.Core.Dispatch BusinessOs.Core.Facade
open BusinessOs.Core.RetryRuns (Failed LastFailure Settled started running dispatch_cases
  settle_settled)

universe u

variable {ω : Type u}

/-- A workflow that a call created, and whether the call returned `Ok`. -/
structure Submission where
  id : String
  ok : Bool
  deriving DecidableEq

/-- The façade and the submissions made so far. -/
structure Handled (ω : Type u) where
  os : BusinessOS ω
  submissions : List Submission

def submission (e : Event ω) : Option Submission :=
  match e.call, e.reply with
  | .submitAndRun _ _ _ uuid _ _ _ _, .ran result => some ⟨"wf_" ++ uuid, result.isOk⟩
  | _, _ => none

/-- One call; the ids of new workflows do not repeat. -/
structure Step (w : Handled ω) (e : Event ω) (t : Handled ω) : Prop where
  call : Facade.Step w.os e t.os
  submissions : t.submissions = w.submissions ++ (submission e).toList
  fresh : ∀ s ∈ submission e, s.id ∉ w.submissions.map Submission.id

/-- The entry that the outcome of a submission calls for. -/
def promised (ok : Bool) : AuditAction := if ok then .workflowCompleted else .escalationCreated

/-- Every submission has its entry in the orchestrator's log. -/
def Escalated (w : Handled ω) : Prop :=
  ∀ s ∈ w.submissions, promised s.ok ∈ w.os.orchestrator.audit.actionsFor s.id

/-- A submission finds an agent that answers `Ok`, or one whose first attempt is also its last:
there are no retries, or so many that the sum wraps. -/
def Finishes (os : BusinessOS ω) : Call ω → Prop
  | .submitAndRun kind payload source uuid now stamp world r =>
    ∃ agent, os.orchestrator.registry.get kind = some agent ∧
      (os.orchestrator.config.maxRetries + 1 ≤ 1 ∨
        Failed (agent.run world (running
          (os.orchestrator.submitWorkflow kind payload source uuid now stamp).2 r.running)
            .new).2 = false)
  | _ => True

section Submit

/-- A running workflow settles as its agent answered. -/
theorem settle_isOk (o : Orchestrator ω) {workflow : Workflow} (status : workflow.status = .running)
    (r : Readings) (outcome : Except String Value) :
    (o.settle workflow r outcome).2.2.isOk = !Failed outcome := by
  cases outcome with
  | ok value =>
    simp only [Orchestrator.settle, markCompleted, transition, status, canTransition]
    rfl
  | error errMsg =>
    dsimp only [Orchestrator.settle]
    cases markFailed workflow ("agent error: " ++ errMsg) r.settled with
    | error e => rfl
    | ok failed =>
      dsimp only
      by_cases again : (o.shouldRetry failed r.jitter).shouldRetry = true
      · rw [if_pos again]
        cases retry failed r.reset <;> rfl
      · rw [if_neg again]
        rfl

variable (os : BusinessOS ω) (kind : WorkflowKind) (payload : Value) (source uuid : String)
variable (now : ℤ) (stamp : Stamp) (world : ω) (r : Readings)

/-- Without an agent the workflow is created and no more. -/
theorem submitAndRun_noAgent (absent : os.orchestrator.registry.get kind = none) :
    (os.submitAndRun kind payload source uuid now stamp world r).2.isOk = false ∧
      ∀ id, (os.submitAndRun kind payload source uuid now stamp world
          r).1.orchestrator.audit.actionsFor id = os.orchestrator.audit.actionsFor id ++
        if "wf_" ++ uuid = id then [.workflowCreated] else [] := by
  have refused : (os.orchestrator.submitWorkflow kind payload source uuid now stamp).1.dispatch
      (os.orchestrator.submitWorkflow kind payload source uuid now stamp).2 r =
        .error (.noAgent kind) := by
    unfold Orchestrator.dispatch
    dsimp only [Orchestrator.submitWorkflow]
    rw [absent]
  simp only [BusinessOS.submitAndRun, Orchestrator.runWorkflow, refused]
  refine ⟨rfl, fun id => ?_⟩
  exact actionsFor_created

/-- With one, the log tells of its answer, and of the escalation when no attempt is left. -/
theorem submitAndRun_agent {agent : Agent ω}
    (found : os.orchestrator.registry.get kind = some agent) {outcome : Except String Value}
    (answer : (agent.run world (running
      (os.orchestrator.submitWorkflow kind payload source uuid now stamp).2 r.running) .new).2 =
        outcome) :
    (os.submitAndRun kind payload source uuid now stamp world r).2.isOk = !Failed outcome ∧
      ∀ id, (os.submitAndRun kind payload source uuid now stamp world
          r).1.orchestrator.audit.actionsFor id = os.orchestrator.audit.actionsFor id ++
        if "wf_" ++ uuid = id then
          [.workflowCreated, .workflowStarted,
            if Failed outcome then .workflowFailed else .workflowCompleted] ++
          if Failed outcome && decide (os.orchestrator.config.maxRetries + 1 ≤ 1) then
            [.escalationCreated] else []
        else [] := by
  generalize submitted : os.orchestrator.submitWorkflow kind payload source uuid now stamp = pair
    at answer
  have registry : pair.1.registry = os.orchestrator.registry := by rw [← submitted]; rfl
  have created : ∀ id, pair.1.audit.actionsFor id = os.orchestrator.audit.actionsFor id ++
      if "wf_" ++ uuid = id then [.workflowCreated] else [] := by
    intro id
    rw [← submitted]
    exact actionsFor_created
  have fields : pair.2.id = "wf_" ++ uuid ∧ pair.2.kind = kind ∧ pair.2.status = .pending ∧
      pair.2.attempts = 0 ∧ pair.2.maxAttempts = os.orchestrator.config.maxRetries + 1 := by
    rw [← submitted]
    exact ⟨rfl, rfl, rfl, rfl, rfl⟩
  obtain ⟨id, kind_, status, attempts, maxAttempts⟩ := fields
  have reached : pair.1.dispatch pair.2 r =
      .ok (started pair.1 pair.2 r.started, running pair.2 r.running, agent) := by
    rcases dispatch_cases pair.1 pair.2 r with ⟨_, other, there, reached⟩ | ⟨cannot, _⟩
    · rw [kind_, registry, found] at there
      rw [Option.some.inj there]
      exact reached
    · rw [status, kind_, registry, found] at cannot
      rcases cannot with pending | absent
      · cases pending
      · cases absent
  have last : LastFailure (running pair.2 r.running) outcome =
      (Failed outcome && decide (os.orchestrator.config.maxRetries + 1 ≤ 1)) := by
    simp only [LastFailure, running, attempts, maxAttempts]
    rfl
  simp only [BusinessOS.submitAndRun, submitted, Orchestrator.runWorkflow, reached, answer]
  refine ⟨?_, fun target => ?_⟩
  · have isRunning : (running pair.2 r.running).status = .running := rfl
    rw [← settle_isOk (started pair.1 pair.2 r.started) isRunning r]
    cases ((started pair.1 pair.2 r.started).settle (running pair.2 r.running)
      r outcome).2.2 <;> rfl
  · rw [(settle_settled _ rfl r outcome).log target, last]
    simp only [started, running, actionsFor_started, created, id]
    by_cases own : "wf_" ++ uuid = target <;> simp [own]

end Submit

section Steps

variable {w t : Handled ω} {e : Event ω}

/-- What every run keeps: the orchestrator's log knows no workflow but the submitted ones. -/
structure Recorded (w : Handled ω) : Prop where
  open_ : PendingOpen w.os
  silent : ∀ id, id ∉ w.submissions.map Submission.id →
    w.os.orchestrator.audit.actionsFor id = []

theorem orchestrator_unchanged {os next : BusinessOS ω} (change : Change os e next)
    (other : ∀ kind payload source uuid now stamp world r,
      e.call ≠ .submitAndRun kind payload source uuid now stamp world r) :
    next.orchestrator.audit = os.orchestrator.audit := by
  cases change with
  | submit kind payload source uuid now stamp world r =>
    exact absurd rfl (other kind payload source uuid now stamp world r)
  | _ => rfl

/-- A submission adds entries to the history of its workflow, and the one that its outcome calls
for is among them exactly when the submission finishes. -/
theorem submitAndRun_promised (os : BusinessOS ω) (kind : WorkflowKind) (payload : Value)
    (source uuid : String) (now : ℤ) (stamp : Stamp) (world : ω) (r : Readings) :
    ∃ actions,
      (∀ id, (os.submitAndRun kind payload source uuid now stamp world
        r).1.orchestrator.audit.actionsFor id = os.orchestrator.audit.actionsFor id ++
          if "wf_" ++ uuid = id then actions else []) ∧
      (promised (os.submitAndRun kind payload source uuid now stamp world r).2.isOk ∈ actions ↔
        Finishes os (.submitAndRun kind payload source uuid now stamp world r)) := by
  cases found : os.orchestrator.registry.get kind with
  | none =>
    obtain ⟨failed, log⟩ :=
      submitAndRun_noAgent os kind payload source uuid now stamp world r found
    refine ⟨[.workflowCreated], log, ?_⟩
    rw [failed]
    simp [promised, Finishes, found]
  | some agent =>
    obtain ⟨isOk, log⟩ :=
      submitAndRun_agent os kind payload source uuid now stamp world r found rfl
    refine ⟨_, log, ?_⟩
    rw [isOk]
    simp only [Finishes, found, Option.some.injEq, exists_eq_left']
    generalize (agent.run world _ _).2 = outcome
    cases outcome with
    | ok value => simp [promised, Failed]
    | error errMsg =>
      by_cases last : os.orchestrator.config.maxRetries + 1 ≤ 1
      · simp [promised, Failed, last]
      · simp [promised, Failed, last]

/-- What a step does to the submissions and to the log. -/
theorem step_log (recorded : Recorded w) (step : Step w e t) :
    (t.submissions = w.submissions ∧ Finishes w.os e.call ∧
      t.os.orchestrator.audit = w.os.orchestrator.audit) ∨
    ∃ s actions, t.submissions = w.submissions ++ [s] ∧ s.id ∉ w.submissions.map Submission.id ∧
      (∀ id, t.os.orchestrator.audit.actionsFor id = w.os.orchestrator.audit.actionsFor id ++
        if s.id = id then actions else []) ∧
      (promised s.ok ∈ actions ↔ Finishes w.os e.call) := by
  have change := step_change recorded.open_ step.call
  have submissions := step.submissions
  have fresh := step.fresh
  have call := step.call
  obtain ⟨asked, reply⟩ := e
  cases asked with
  | submitAndRun kind payload source uuid now stamp world r =>
    right
    have taken : ((w.os.submitAndRun kind payload source uuid now stamp world r).1,
        Reply.ran (w.os.submitAndRun kind payload source uuid now stamp world r).2) =
          (t.os, reply) := Option.some.inj call
    obtain ⟨next, rfl⟩ := Prod.mk.inj taken
    obtain ⟨actions, log, promise⟩ :=
      submitAndRun_promised w.os kind payload source uuid now stamp world r
    rw [next] at log
    exact ⟨_, actions, submissions, fresh _ rfl, log, promise⟩
  | _ =>
    left
    refine ⟨?_, trivial, orchestrator_unchanged change (by simp)⟩
    rw [submissions]
    exact List.append_nil _

theorem Recorded.step (recorded : Recorded w) (step : Step w e t) : Recorded t := by
  refine ⟨(step_change recorded.open_ step.call).pendingOpen recorded.open_, ?_⟩
  intro id unknown
  rcases step_log recorded step with ⟨submissions, _, log⟩ | ⟨s, actions, submissions, _, log, _⟩
  · rw [submissions] at unknown
    rw [log]
    exact recorded.silent id unknown
  · rw [submissions, List.map_append, List.mem_append, not_or] at unknown
    have other : s.id ≠ id := by
      rintro rfl
      exact unknown.2 (List.mem_singleton_self _)
    rw [log, recorded.silent id unknown.1, if_neg other]
    rfl

/-- A step keeps every submission's entry in the log exactly when what it submits finishes. -/
theorem Recorded.escalated_step (recorded : Recorded w) (step : Step w e t) :
    Escalated t ↔ Escalated w ∧ Finishes w.os e.call := by
  unfold Escalated
  rcases step_log recorded step with
    ⟨submissions, finishes, log⟩ | ⟨s, actions, submissions, fresh, log, promise⟩
  · rw [submissions, log, and_iff_left finishes]
  · rw [submissions, ← promise]
    have own : t.os.orchestrator.audit.actionsFor s.id = actions := by
      rw [log, recorded.silent s.id fresh, if_pos rfl, List.nil_append]
    have others : ∀ x ∈ w.submissions, t.os.orchestrator.audit.actionsFor x.id =
        w.os.orchestrator.audit.actionsFor x.id := by
      intro x member
      have other : s.id ≠ x.id := by
        intro same
        exact fresh (same ▸ List.mem_map_of_mem member)
      rw [log, if_neg other, List.append_nil]
    constructor
    · intro all
      refine ⟨fun x member => ?_, ?_⟩
      · rw [← others x member]
        exact all x (List.mem_append_left _ member)
      · rw [← own]
        exact all s (List.mem_append_right _ (List.mem_singleton_self _))
    · rintro ⟨all, last⟩ x member
      rcases List.mem_append.mp member with old | new
      · rw [others x old]
        exact all x old
      · rw [List.mem_singleton.mp new, own]
        exact last

end Steps

/-- After a run of façade calls every submission is completed or escalated in the log, as its call
returned, exactly when each of them found an agent that succeeded or had no retries left. -/
theorem escalation_iff {config : BusinessOSConfig} {es : List (Event ω)} {w : Handled ω}
    (run : Run Step ⟨.new config, []⟩ es w) :
    Escalated w ↔
      Run (Guarded (fun w e => Finishes w.os e.call) Step) ⟨.new config, []⟩ es w := by
  have start : Recorded (⟨.new config, []⟩ : Handled ω) := by
    refine ⟨?_, fun _ _ => rfl⟩
    intro a member
    cases member
  have empty : Escalated (⟨.new config, []⟩ : Handled ω) := by
    intro s member
    cases member
  have exactly := Run.exactly_guarded (I := Escalated)
    (fun s e t recorded step => recorded.step step)
    (fun s e t recorded step => recorded.escalated_step step) run start
  exact exactly.trans (and_iff_right empty)

section Sample

/-- The agent is there, and times out at its first attempt. -/
def ready : BusinessOS (Except String Value) :=
  (BusinessOS.new .default).withAgent .financeOperations RetryRuns.scripted

def submitted : BusinessOS (Except String Value) × Except OrchestratorError Workflow :=
  ready.submitAndRun .financeOperations .null "webhook" "a" 0 ⟨"c1", 0⟩ (.error "timeout")
    RetryRuns.sampleReadings

def sampleEvents : List (Event (Except String Value)) :=
  [⟨.withAgent .financeOperations RetryRuns.scripted, .done⟩,
    ⟨.submitAndRun .financeOperations .null "webhook" "a" 0 ⟨"c1", 0⟩ (.error "timeout")
      RetryRuns.sampleReadings, .ran submitted.2⟩]

theorem sample_run :
    Run Step ⟨.new .default, []⟩ sampleEvents ⟨submitted.1, [⟨"wf_a", false⟩]⟩ := by
  have first : Step ⟨.new .default, []⟩ ⟨.withAgent .financeOperations RetryRuns.scripted, .done⟩
      ⟨ready, []⟩ := ⟨rfl, rfl, fun _ none_ => nomatch none_⟩
  have failed : submitted.2.isOk = false := by decide +kernel
  have second : Step ⟨ready, []⟩ ⟨.submitAndRun .financeOperations .null "webhook" "a" 0 ⟨"c1", 0⟩
      (.error "timeout") RetryRuns.sampleReadings, .ran submitted.2⟩
      ⟨submitted.1, [⟨"wf_a", false⟩]⟩ := by
    refine ⟨rfl, ?_, fun _ _ => List.not_mem_nil⟩
    rw [← failed]
    rfl
  exact .cons first (.single second)

theorem escalation_iff_sample :
    Escalated ⟨submitted.1, [⟨"wf_a", false⟩]⟩ ↔
      Run (Guarded (fun w e => Finishes w.os e.call) Step) ⟨.new .default, []⟩ sampleEvents
        ⟨submitted.1, [⟨"wf_a", false⟩]⟩ :=
  escalation_iff sample_run

/-- The call fails, the log ends with the failure, and no later call can pick the workflow up. -/
theorem first_failure_lost :
    Run Step ⟨.new .default, []⟩ sampleEvents ⟨submitted.1, [⟨"wf_a", false⟩]⟩ ∧
      submitted.1.orchestrator.audit.actionsFor "wf_a" =
        [.workflowCreated, .workflowStarted, .workflowFailed] ∧
      ¬ Escalated ⟨submitted.1, [⟨"wf_a", false⟩]⟩ := by
  have log : submitted.1.orchestrator.audit.actionsFor "wf_a" =
      [.workflowCreated, .workflowStarted, .workflowFailed] := by decide +kernel
  refine ⟨sample_run, log, ?_⟩
  intro escalated
  have entry := escalated ⟨"wf_a", false⟩ (List.mem_singleton_self _)
  rw [log] at entry
  exact absurd entry (by decide)

end Sample

end BusinessOs.Core.FacadeEscalation
