/- Source: rust/src/orchestrator.rs, rust/src/state_machine.rs
   digest: Every run of a submitted workflow keeps attempts, status and audit log in step. -/

import BusinessOs.Core.Dispatch
import BusinessOs.Lib.Execution

set_option autoImplicit false
set_option relaxedAutoImplicit false

namespace BusinessOs.Core.RetryRuns

open BusinessOs.Lib.Execution BusinessOs.Lib.Json.Tree
open BusinessOs.Core.Types BusinessOs.Core.StateMachine BusinessOs.Core.Audit
open BusinessOs.Core.Dispatch

universe u

variable {ω : Type u}

/-- The orchestrator, one workflow, and what its agent has answered so far. -/
structure World (ω : Type u) where
  orchestrator : Orchestrator ω
  workflow : Workflow
  outcomes : List (Except String Value)

/-- Calls on the workflow, and calls that use the same orchestrator for others. -/
inductive Event (ω : Type u)
  | runWorkflow (world : ω) (r : Readings)
  | markCancelled (now : ℤ)
  | submitOther (kind : WorkflowKind) (payload : Value) (source uuid : String) (now : ℤ)
      (stamp : Stamp)
  | runOther (workflow : Workflow) (world : ω) (r : Readings)

/-- The id that a call on another workflow uses. -/
def Event.other : Event ω → Option String
  | .runWorkflow _ _ | .markCancelled _ => none
  | .submitOther _ _ _ uuid _ _ => some ("wf_" ++ uuid)
  | .runOther workflow _ _ => some workflow.id

def perform (w : World ω) : Event ω → World ω
  | .runWorkflow world r =>
    let (orchestrator, workflow, _) := w.orchestrator.runWorkflow w.workflow world r
    { orchestrator
      workflow
      outcomes := w.outcomes ++ (w.orchestrator.invocation w.workflow world r).toList }
  | .markCancelled now =>
    match markCancelled w.workflow now with
    | .error _ => w
    | .ok workflow => { w with workflow }
  | .submitOther kind payload source uuid now stamp =>
    { w with
      orchestrator := (w.orchestrator.submitWorkflow kind payload source uuid now stamp).1 }
  | .runOther workflow world r =>
    { w with orchestrator := (w.orchestrator.runWorkflow workflow world r).1 }

/-- A call on another workflow carries another id. -/
def Step (w : World ω) (e : Event ω) (t : World ω) : Prop :=
  e.other ≠ some w.workflow.id ∧ perform w e = t

def submitted (o : Orchestrator ω) (kind : WorkflowKind) (payload : Value)
    (source uuid : String) (now : ℤ) (stamp : Stamp) : World ω :=
  let (orchestrator, workflow) := o.submitWorkflow kind payload source uuid now stamp
  ⟨orchestrator, workflow, []⟩

def Failed : Except String Value → Bool
  | .ok _ => false
  | .error _ => true

/-- The two entries of one invocation. -/
def invocationActions (outcome : Except String Value) : List AuditAction :=
  [.workflowStarted, if Failed outcome then .workflowFailed else .workflowCompleted]

/-- The invocations that a workflow may use up. -/
def limit (w : World ω) : ℕ := max 1 w.workflow.maxAttempts.toNat

/-- All the invocations are used up and none succeeded. -/
def Exhausted (w : World ω) : Bool :=
  w.outcomes.length == limit w && w.outcomes.all Failed

/-- The log of a workflow whose agent answered `w.outcomes`. -/
def expectedActions (w : World ω) : List AuditAction :=
  .workflowCreated :: w.outcomes.flatMap invocationActions ++
    if Exhausted w then [.escalationCreated] else []

/-- What each status says about the outcomes. -/
def StatusLaw (w : World ω) : Prop :=
  match w.workflow.status with
  | .pending => w.outcomes.length < limit w ∧ w.outcomes.all Failed = true
  | .failed => Exhausted w = true
  | .completed => w.outcomes.all Failed = false
  | .cancelled => True
  | .running | .waitingForHuman => False

structure Inv (w : World ω) : Prop where
  agent : (w.orchestrator.registry.get w.workflow.kind).isSome
  attempts : w.workflow.attempts.toNat = w.outcomes.length
  bound : w.outcomes.length ≤ limit w
  status : StatusLaw w
  log : w.orchestrator.audit.actionsFor w.workflow.id = expectedActions w

/-- The failure that uses up the last attempt. -/
def LastFailure (workflow : Workflow) (outcome : Except String Value) : Bool :=
  Failed outcome && decide (workflow.maxAttempts ≤ workflow.attempts)

/-- What an invocation leaves of the running workflow it was made for. -/
structure Settled (o : Orchestrator ω) (workflow : Workflow) (outcome : Except String Value)
    (o' : Orchestrator ω) (workflow' : Workflow) : Prop where
  registry : o'.registry = o.registry
  id : workflow'.id = workflow.id
  kind : workflow'.kind = workflow.kind
  maxAttempts : workflow'.maxAttempts = workflow.maxAttempts
  attempts : workflow'.attempts = workflow.attempts
  status : workflow'.status =
    if LastFailure workflow outcome then .failed
    else if Failed outcome then .pending else .completed
  log : ∀ id, o'.audit.actionsFor id = o.audit.actionsFor id ++
    if workflow.id = id then
      [if Failed outcome then .workflowFailed else .workflowCompleted] ++
        if LastFailure workflow outcome then [.escalationCreated] else []
    else []

theorem settle_settled (o : Orchestrator ω) {workflow : Workflow}
    (running : workflow.status = .running) (r : Readings) (outcome : Except String Value) :
    Settled o workflow outcome (o.settle workflow r outcome).1
      (o.settle workflow r outcome).2.1 := by
  cases outcome with
  | ok value =>
    have completed : markCompleted workflow value r.settled r.completedAt = .ok
        { workflow with
          status := .completed
          updatedAt := r.settled
          result := some value
          completedAt := some r.completedAt } := by
      simp [markCompleted, transition, running, canTransition]
    simp only [Orchestrator.settle, completed]
    refine ⟨rfl, rfl, rfl, rfl, rfl, rfl, fun id => ?_⟩
    simp only [actionsFor_completed]
    by_cases own : workflow.id = id <;> simp [own, Failed, LastFailure]
  | error errMsg =>
    have failed : markFailed workflow ("agent error: " ++ errMsg) r.settled = .ok
        { workflow with
          status := .failed
          updatedAt := r.settled
          error := some ("agent error: " ++ errMsg) } := by
      simp [markFailed, transition, running, canTransition]
    by_cases last : workflow.maxAttempts ≤ workflow.attempts
    · simp only [Orchestrator.settle, failed, Orchestrator.shouldRetry, last, if_true,
        Bool.false_eq_true, if_false]
      refine ⟨rfl, rfl, rfl, rfl, rfl, by simp [LastFailure, Failed, last], fun id => ?_⟩
      simp only [actionsFor_escalation, actionsFor_failed]
      by_cases own : workflow.id = id <;> simp [own, last, Failed, LastFailure]
    · simp only [Orchestrator.settle, failed, Orchestrator.shouldRetry, last, if_true,
        if_false, retry, transition, canTransition, beq_self_eq_true]
      refine ⟨rfl, rfl, rfl, rfl, rfl, by simp [LastFailure, Failed, last], fun id => ?_⟩
      simp only [actionsFor_failed]
      by_cases own : workflow.id = id <;> simp [own, last, Failed, LastFailure]

/-- The workflow as its agent sees it. -/
def running (workflow : Workflow) (now : ℤ) : Workflow :=
  { workflow with status := .running, updatedAt := now, attempts := workflow.attempts + 1 }

/-- The orchestrator at that moment. -/
def started (o : Orchestrator ω) (workflow : Workflow) (stamp : Stamp) : Orchestrator ω :=
  { o with audit := o.audit.recordWorkflowStarted workflow.id stamp }

theorem markRunning_eq (workflow : Workflow) (now : ℤ) :
    markRunning workflow now =
      if canTransition workflow.status .running then .ok (running workflow now)
      else .error (.invalidTransition workflow.status .running) := by
  by_cases can : canTransition workflow.status .running = true
  · simp [markRunning, transition, can, running]
  · simp [markRunning, transition, can]

/-- A call reaches the agent exactly when there is one and the workflow may start running. -/
theorem dispatch_cases (o : Orchestrator ω) (workflow : Workflow) (r : Readings) :
    (canTransition workflow.status .running = true ∧
      ∃ agent, o.registry.get workflow.kind = some agent ∧
        o.dispatch workflow r =
          .ok (started o workflow r.started, running workflow r.running, agent)) ∨
    ((canTransition workflow.status .running = false ∨ o.registry.get workflow.kind = none) ∧
      ∃ e, o.dispatch workflow r = .error e) := by
  cases found : o.registry.get workflow.kind with
  | none =>
    right
    refine ⟨.inr rfl, ?_⟩
    cases status : workflow.status <;> simp [Orchestrator.dispatch, status, found]
  | some agent =>
    cases status : workflow.status with
    | pending =>
      left
      refine ⟨rfl, agent, rfl, ?_⟩
      simp only [Orchestrator.dispatch, status, found, markRunning_eq, canTransition]
      rfl
    | waitingForHuman =>
      left
      refine ⟨rfl, agent, rfl, ?_⟩
      simp only [Orchestrator.dispatch, status, found, markRunning_eq, canTransition]
      rfl
    | running =>
      right
      refine ⟨.inl rfl, ?_⟩
      simp [Orchestrator.dispatch, status, found, markRunning_eq, canTransition]
    | failed =>
      right
      refine ⟨.inl rfl, ?_⟩
      simp [Orchestrator.dispatch, status, found, markRunning_eq, canTransition]
    | completed =>
      right
      refine ⟨.inl rfl, ?_⟩
      simp [Orchestrator.dispatch, status]
    | cancelled =>
      right
      refine ⟨.inl rfl, ?_⟩
      simp [Orchestrator.dispatch, status]

/-- A call either settles one outcome of the agent, or leaves orchestrator and workflow alone. -/
theorem run_cases (o : Orchestrator ω) (workflow : Workflow) (world : ω) (r : Readings) :
    (canTransition workflow.status .running = true ∧
      ∃ outcome, o.invocation workflow world r = some outcome ∧
        Settled (started o workflow r.started) (running workflow r.running) outcome
          (o.runWorkflow workflow world r).1 (o.runWorkflow workflow world r).2.1) ∨
    ((canTransition workflow.status .running = false ∨ o.registry.get workflow.kind = none) ∧
      o.invocation workflow world r = none ∧
      (o.runWorkflow workflow world r).1 = o ∧
      (o.runWorkflow workflow world r).2.1 = workflow) := by
  rcases dispatch_cases o workflow r with ⟨can, agent, _, reached⟩ | ⟨cannot, e, refused⟩
  · left
    refine ⟨can, (agent.run world (running workflow r.running) .new).2, ?_, ?_⟩
    · simp only [Orchestrator.invocation, reached]
    · simp only [Orchestrator.runWorkflow, reached]
      exact settle_settled _ rfl r _
  · right
    refine ⟨cannot, ?_, ?_, ?_⟩
    · simp only [Orchestrator.invocation, refused]
    · simp only [Orchestrator.runWorkflow, refused]
    · simp only [Orchestrator.runWorkflow, refused]

/-- A call on another workflow adds nothing to this one's history. -/
theorem run_other (o : Orchestrator ω) {workflow : Workflow} (world : ω) (r : Readings)
    {id : String} (other : workflow.id ≠ id) :
    (o.runWorkflow workflow world r).1.registry = o.registry ∧
      (o.runWorkflow workflow world r).1.audit.actionsFor id = o.audit.actionsFor id := by
  rcases run_cases o workflow world r with ⟨_, outcome, _, settled⟩ | ⟨_, _, same, _⟩
  · refine ⟨settled.registry, ?_⟩
    rw [settled.log id]
    simp [started, running, other]
  · rw [same]
    exact ⟨rfl, rfl⟩

section Step

variable {w t : World ω}

/-- `t` follows `w` by one answer of the agent. -/
structure Answered (w : World ω) (r : Readings) (outcome : Except String Value) (t : World ω) :
    Prop where
  settled : Settled (started w.orchestrator w.workflow r.started)
    (running w.workflow r.running) outcome t.orchestrator t.workflow
  outcomes : t.outcomes = w.outcomes ++ [outcome]

variable {r : Readings} {outcome : Except String Value}

theorem Answered.limit_eq (answered : Answered w r outcome t) : limit t = limit w := by
  unfold limit
  rw [answered.settled.maxAttempts, running]

theorem Answered.attempts (answered : Answered w r outcome t)
    (count : w.workflow.attempts.toNat = w.outcomes.length)
    (room : w.outcomes.length < limit w) :
    t.workflow.attempts.toNat = t.outcomes.length := by
  have small : w.workflow.maxAttempts.toNat < 2 ^ 32 := w.workflow.maxAttempts.toNat_lt
  have next : t.workflow.attempts = w.workflow.attempts + 1 := answered.settled.attempts
  unfold limit at room
  rw [next, answered.outcomes, UInt32.toNat_add, UInt32.toNat_one, List.length_append,
    List.length_singleton, count]
  omega

/-- The two exhaustion checks agree: the last failure is the one that uses up the limit. -/
theorem Answered.last (answered : Answered w r outcome t)
    (count : w.workflow.attempts.toNat = w.outcomes.length)
    (room : w.outcomes.length < limit w) (failed : w.outcomes.all Failed = true) :
    LastFailure (running w.workflow r.running) outcome = Exhausted t := by
  have attempts := answered.attempts count room
  have next : t.workflow.attempts = w.workflow.attempts + 1 := answered.settled.attempts
  have limit_eq := answered.limit_eq
  have length : t.outcomes.length = w.outcomes.length + 1 := by simp [answered.outcomes]
  have check : w.workflow.maxAttempts ≤ w.workflow.attempts + 1 ↔
      t.outcomes.length = limit t := by
    rw [← next, UInt32.le_iff_toNat_le, attempts, length, limit_eq]
    unfold limit at room ⊢
    omega
  have all : t.outcomes.all Failed = Failed outcome := by
    simp [answered.outcomes, failed]
  unfold LastFailure Exhausted
  rw [all, Bool.and_comm]
  congr 1
  show decide (w.workflow.maxAttempts ≤ w.workflow.attempts + 1) = _
  simp only [check, beq_eq_decide]

theorem Answered.inv (answered : Answered w r outcome t) (inv : Inv w)
    (pending : w.workflow.status = .pending) : Inv t := by
  have law := inv.status
  simp only [StatusLaw, pending] at law
  obtain ⟨room, failed⟩ := law
  have limit_eq := answered.limit_eq
  have length : t.outcomes.length = w.outcomes.length + 1 := by simp [answered.outcomes]
  have last := answered.last inv.attempts room failed
  have all : t.outcomes.all Failed = Failed outcome := by
    simp [answered.outcomes, failed]
  have id : t.workflow.id = w.workflow.id := answered.settled.id
  refine ⟨?_, answered.attempts inv.attempts room, by omega, ?_, ?_⟩
  · rw [answered.settled.registry, answered.settled.kind]
    exact inv.agent
  · have status := answered.settled.status
    rw [last] at status
    cases exhausted : Exhausted t with
    | true =>
      simp only [StatusLaw, status, exhausted, if_true]
    | false =>
      cases fail : Failed outcome with
      | true =>
        have short : t.outcomes.length ≠ limit t := by
          intro full
          simp [Exhausted, full, all, fail] at exhausted
        simp only [StatusLaw, status, exhausted, fail, all, Bool.false_eq_true, if_false, if_true,
          and_true]
        omega
      | false => simp only [StatusLaw, status, exhausted, fail, all, Bool.false_eq_true, if_false]
  · have unfinished : Exhausted w = false := by
      have short : w.outcomes.length ≠ limit w := by omega
      simp [Exhausted, short]
    have before := inv.log
    have after := answered.settled.log t.workflow.id
    rw [last, id] at after
    simp only [running, started, actionsFor_started, if_true, before] at after
    rw [id, after]
    simp [expectedActions, unfinished, answered.outcomes, invocationActions]

theorem inv_run (inv : Inv w) (world : ω) (r : Readings) :
    Inv (perform w (.runWorkflow world r)) := by
  rcases run_cases w.orchestrator w.workflow world r with
    ⟨can, outcome, answer, settled⟩ | ⟨_, silent, same, untouched⟩
  · have pending : w.workflow.status = .pending := by
      have law := inv.status
      unfold StatusLaw at law
      cases status : w.workflow.status <;> simp_all [canTransition]
    have answered : Answered w r outcome (perform w (.runWorkflow world r)) := by
      refine ⟨settled, ?_⟩
      simp only [perform, answer, Option.toList_some]
    exact answered.inv inv pending
  · have still : perform w (.runWorkflow world r) = w := by
      simp only [perform, silent, same, untouched, Option.toList_none, List.append_nil]
    rw [still]
    exact inv

/-- Cancelling changes nothing but the status, and only of an unfinished workflow. -/
theorem inv_cancel (inv : Inv w) (now : ℤ) : Inv (perform w (.markCancelled now)) := by
  obtain ⟨agent, attempts, bound, status, log⟩ := inv
  cases cancel : markCancelled w.workflow now with
  | error e =>
    simp only [perform, cancel]
    exact ⟨agent, attempts, bound, status, log⟩
  | ok workflow =>
    obtain ⟨_, _, rfl⟩ := markCancelled_ok cancel
    simp only [perform, cancel]
    exact ⟨agent, attempts, bound, trivial, log⟩

theorem inv_step {e : Event ω} (inv : Inv w) (step : Step w e t) : Inv t := by
  obtain ⟨apart, rfl⟩ := step
  cases e with
  | runWorkflow world r => exact inv_run inv world r
  | markCancelled now => exact inv_cancel inv now
  | submitOther kind payload source uuid now stamp =>
    have other : "wf_" ++ uuid ≠ w.workflow.id := by
      intro same
      exact apart (congrArg some same)
    refine ⟨inv.agent, inv.attempts, inv.bound, inv.status, ?_⟩
    show ((w.orchestrator.submitWorkflow kind payload source uuid now stamp).1).audit.actionsFor
      w.workflow.id = expectedActions w
    simp only [Orchestrator.submitWorkflow, actionsFor_created, other, if_false, List.append_nil]
    exact inv.log
  | runOther workflow world r =>
    have other : workflow.id ≠ w.workflow.id := by
      intro same
      exact apart (congrArg some same)
    obtain ⟨registry, log⟩ := run_other w.orchestrator world r other
    refine ⟨?_, inv.attempts, inv.bound, inv.status, ?_⟩
    · show ((w.orchestrator.runWorkflow workflow world r).1.registry.get _).isSome
      rw [registry]
      exact inv.agent
    · exact log.trans inv.log

/-- No call changes the workflow's identity or its limit. -/
theorem step_fixed {e : Event ω} (step : Step w e t) :
    t.workflow.id = w.workflow.id ∧ limit t = limit w := by
  obtain ⟨_, rfl⟩ := step
  cases e with
  | runWorkflow world r =>
    rcases run_cases w.orchestrator w.workflow world r with
      ⟨_, outcome, _, settled⟩ | ⟨_, _, _, untouched⟩
    · refine ⟨settled.id, ?_⟩
      show max 1 (w.orchestrator.runWorkflow w.workflow world r).2.1.maxAttempts.toNat = _
      rw [settled.maxAttempts]
      rfl
    · refine ⟨congrArg Workflow.id untouched, ?_⟩
      show max 1 (w.orchestrator.runWorkflow w.workflow world r).2.1.maxAttempts.toNat = _
      rw [untouched]
      rfl
  | markCancelled now =>
    simp only [perform, markCancelled]
    cases status : w.workflow.status <;> exact ⟨rfl, rfl⟩
  | submitOther _ _ _ _ _ _ => exact ⟨rfl, rfl⟩
  | runOther _ _ _ => exact ⟨rfl, rfl⟩

theorem run_fixed {es : List (Event ω)} (run : Run Step w es t) :
    t.workflow.id = w.workflow.id ∧ limit t = limit w := by
  apply run.invariant (I := fun s => s.workflow.id = w.workflow.id ∧ limit s = limit w)
  · rintro s e s' ⟨id, lim⟩ step
    obtain ⟨id', lim'⟩ := step_fixed step
    exact ⟨id'.trans id, lim'.trans lim⟩
  · exact ⟨rfl, rfl⟩

end Step

/-- The law of a workflow with at most `A` invocations. -/
structure RetryLaw (id : String) (A : ℕ) (w : World ω) : Prop where
  invocations : w.outcomes.length ≤ A
  attempts : w.workflow.attempts.toNat = w.outcomes.length
  /-- One start and one end for each invocation, in order, and one escalation exactly when `A`
  invocations happened and all failed. -/
  log : w.orchestrator.audit.actionsFor id =
    .workflowCreated :: w.outcomes.flatMap invocationActions ++
      if w.outcomes.length = A ∧ ∀ outcome ∈ w.outcomes, Failed outcome = true
        then [.escalationCreated] else []
  /-- A call that does not reach the agent leaves no trace. -/
  idle : ∀ world r, w.orchestrator.invocation w.workflow world r = none →
    (w.orchestrator.runWorkflow w.workflow world r).1.audit = w.orchestrator.audit ∧
      (w.orchestrator.runWorkflow w.workflow world r).2.1 = w.workflow

theorem submitted_inv {o : Orchestrator ω} {kind : WorkflowKind} {payload : Value}
    {source uuid : String} {now : ℤ} {stamp : Stamp} (agent : (o.registry.get kind).isSome)
    (fresh : o.audit.actionsFor ("wf_" ++ uuid) = []) :
    Inv (submitted o kind payload source uuid now stamp) := by
  have positive : 0 < limit (submitted o kind payload source uuid now stamp) :=
    Nat.lt_of_lt_of_le Nat.zero_lt_one (Nat.le_max_left 1 _)
  refine ⟨agent, rfl, Nat.zero_le _, ⟨positive, rfl⟩, ?_⟩
  have unfinished : Exhausted (submitted o kind payload source uuid now stamp) = false := by
    have short : 0 ≠ limit (submitted o kind payload source uuid now stamp) := by omega
    show ((0 == limit _) && _) = false
    simp [short]
  rw [expectedActions, unfinished]
  simp only [submitted, Orchestrator.submitWorkflow, actionsFor_created, fresh]
  rfl

theorem Inv.law {w : World ω} (inv : Inv w) : RetryLaw w.workflow.id (limit w) w := by
  refine ⟨inv.bound, inv.attempts, ?_, ?_⟩
  · rw [inv.log]
    simp only [expectedActions, Exhausted, Bool.and_eq_true, beq_iff_eq, List.all_eq_true]
  · intro world r silent
    rcases run_cases w.orchestrator w.workflow world r with
      ⟨_, outcome, answer, _⟩ | ⟨_, _, same, untouched⟩
    · rw [answer] at silent
      cases silent
    · rw [same]
      exact ⟨rfl, untouched⟩

/-- After any calls on a submitted workflow, its attempts, invocations and log agree. -/
theorem retry_law {o : Orchestrator ω} {kind : WorkflowKind} {payload : Value}
    {source uuid : String} {now : ℤ} {stamp : Stamp} (agent : (o.registry.get kind).isSome)
    (fresh : o.audit.actionsFor ("wf_" ++ uuid) = []) {es : List (Event ω)} {w : World ω}
    (run : Run Step (submitted o kind payload source uuid now stamp) es w) :
    RetryLaw ("wf_" ++ uuid)
      (max 1 (submitted o kind payload source uuid now stamp).workflow.maxAttempts.toNat) w := by
  obtain ⟨id, lim⟩ := run_fixed run
  have inv : Inv w := run.invariant (fun _ _ _ inv step => inv_step inv step)
    (submitted_inv agent fresh)
  have law := inv.law
  rw [id, lim] at law
  exact law

/-- Every sequence of calls is a run. -/
theorem run_perform {w : World ω} {es : List (Event ω)}
    (apart : ∀ e ∈ es, e.other ≠ some w.workflow.id) : Run Step w es (es.foldl perform w) := by
  induction es generalizing w with
  | nil => exact .nil w
  | cons e es ih =>
    have step : Step w e (perform w e) := ⟨apart e List.mem_cons_self, rfl⟩
    refine .cons step (ih fun f member => ?_)
    rw [(step_fixed step).1]
    exact apart f (List.mem_cons_of_mem _ member)

section Sample

/-- An agent that answers as it is told. -/
def scripted : Agent (Except String Value) where
  name := "scripted"
  run := fun world _ context => (context, world)

def sampleOrchestrator : Orchestrator (Except String Value) :=
  (Orchestrator.new { OrchestratorConfig.default with maxRetries := 1 }).withAgent
    .financeOperations scripted

def sampleReadings : Readings :=
  ⟨1, ⟨"s", 1⟩, 2, 2, 1 / 2, 3, ⟨"f", 3⟩, ⟨"e", 3⟩⟩

/-- Two failures with another workflow in between, one call too many, and a cancellation. -/
def sampleEvents : List (Event (Except String Value)) :=
  [.runWorkflow (.error "timeout") sampleReadings,
    .submitOther .financeOperations .null "api" "b" 4 ⟨"c2", 4⟩,
    .runWorkflow (.error "timeout") sampleReadings,
    .runWorkflow (.ok .null) sampleReadings,
    .markCancelled 5]

def sampleStart : World (Except String Value) :=
  submitted sampleOrchestrator .financeOperations .null "webhook" "a" 0 ⟨"c1", 0⟩

theorem retry_law_exhausted :
    RetryLaw "wf_a" 2 (sampleEvents.foldl perform sampleStart) ∧
      (sampleEvents.foldl perform sampleStart).outcomes.length = 2 := by
  have apart : ∀ e ∈ sampleEvents, e.other ≠ some sampleStart.workflow.id := by decide
  exact ⟨retry_law rfl rfl (run_perform apart), by decide⟩

end Sample

end BusinessOs.Core.RetryRuns
