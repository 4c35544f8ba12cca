/- Source: rust/src/orchestrator.rs
   digest: Dispatch of a workflow to its agent, and what the outcome does to it and to the log. -/

import BusinessOs.Core.Audit
import BusinessOs.Core.StateMachine
import BusinessOs.Lib.Chrono
import Mathlib.Algebra.Field.Rat

set_option autoImplicit false
set_option relaxedAutoImplicit false

namespace BusinessOs.Core.Dispatch

open BusinessOs.Lib.Json.Tree BusinessOs.Lib.Chrono
open BusinessOs.Core.Types BusinessOs.Core.StateMachine BusinessOs.Core.Audit

universe u

inductive OrchestratorError
  | noAgent (kind : WorkflowKind)
  | transition (error : TransitionError)
  | agentFailed (message : String)
  | terminalState (id : String)
  deriving DecidableEq, Repr

/-- What an agent may record while it runs. -/
structure AgentContext where
  audit : AuditService
  tasks : List AgentTask

def AgentContext.new : AgentContext := ⟨.new, []⟩

/-- An agent answers as the world `ω` at the time of the call has it. -/
structure Agent (ω : Type u) where
  name : String
  run : ω → Workflow → AgentContext → AgentContext × Except String Value

def AgentRegistry (ω : Type u) : Type u := WorkflowKind → Option (Agent ω)

variable {ω : Type u}

def AgentRegistry.new : AgentRegistry ω := fun _ => none

def AgentRegistry.register (self : AgentRegistry ω) (kind : WorkflowKind) (agent : Agent ω) :
    AgentRegistry ω :=
  Function.update self kind (some agent)

def AgentRegistry.get (self : AgentRegistry ω) (kind : WorkflowKind) : Option (Agent ω) :=
  self kind

/-- The two floating-point settings are read as exact numbers. -/
structure OrchestratorConfig where
  maxRetries : UInt32
  baseBackoffMs : UInt64
  maxBackoffMs : UInt64
  backoffMultiplier : ℚ
  jitterPct : ℚ
  deriving DecidableEq

def OrchestratorConfig.default : OrchestratorConfig where
  maxRetries := 3
  baseBackoffMs := 1000
  maxBackoffMs := 30000
  backoffMultiplier := 2
  jitterPct := 1 / 10

structure RetryDecision where
  shouldRetry : Bool
  attempt : UInt32
  delayMs : UInt64
  reason : String
  deriving DecidableEq

structure Orchestrator (ω : Type u) where
  registry : AgentRegistry ω
  config : OrchestratorConfig
  audit : AuditService

def Orchestrator.withAudit (config : OrchestratorConfig) (audit : AuditService) :
    Orchestrator ω :=
  ⟨.new, config, audit⟩

def Orchestrator.new (config : OrchestratorConfig) : Orchestrator ω := .withAudit config .new

/-- The clock readings, UUIDs and jitter sample of one `run_workflow` call. -/
structure Readings where
  running : ℤ
  started : Stamp
  settled : ℤ
  completedAt : ℤ
  jitter : ℚ
  reset : ℤ
  finished : Stamp
  escalated : Stamp
  deriving DecidableEq

section Methods

variable (self : Orchestrator ω)

def Orchestrator.withAgent (kind : WorkflowKind) (agent : Agent ω) : Orchestrator ω :=
  { self with registry := self.registry.register kind agent }

/-- `max_retries + 1` wraps, as in a release build. -/
def Orchestrator.submitWorkflow (kind : WorkflowKind) (payload : Value) (source uuid : String)
    (now : ℤ) (stamp : Stamp) : Orchestrator ω × Workflow :=
  let workflow : Workflow :=
    { id := "wf_" ++ uuid
      kind
      status := .pending
      payload
      result := none
      error := none
      attempts := 0
      maxAttempts := self.config.maxRetries + 1
      source
      createdAt := now
      updatedAt := now
      completedAt := none }
  ({ self with
      audit := self.audit.recordWorkflowCreated workflow.id workflow.kind source stamp },
    workflow)

/-- The exponent is cast to `i32`; `jitter` is the sample in `[0, 1)`. -/
def Orchestrator.computeBackoff (attempt : UInt32) (jitter : ℚ) : UInt64 :=
  if attempt = 0 then self.config.baseBackoffMs
  else
    let exponent := (attempt.toNat : ℤ).bmod (2 ^ 32)
    let raw := self.config.baseBackoffMs.toNat * self.config.backoffMultiplier ^ exponent
    let capped := min raw self.config.maxBackoffMs.toNat
    let jitterRange := capped * self.config.jitterPct
    let jitter := (jitter - 1 / 2) * 2 * jitterRange
    let result := capped + jitter
    floatAsU64 (max result 0)

def Orchestrator.shouldRetry (workflow : Workflow) (jitter : ℚ) : RetryDecision :=
  let attempt := workflow.attempts
  if workflow.maxAttempts ≤ attempt then
    { shouldRetry := false
      attempt
      delayMs := 0
      reason := "max attempts (" ++ toString workflow.maxAttempts ++ ") reached" }
  else
    let remaining := workflow.maxAttempts - attempt
    let delayMs := self.computeBackoff attempt jitter
    { shouldRetry := true
      attempt
      delayMs
      reason := toString remaining ++ " attempt(s) remaining, backing off " ++
        toString delayMs ++ "ms" }

/-- The part of `run_workflow` before the agent runs; no error in it leaves a trace. -/
def Orchestrator.dispatch (workflow : Workflow) (r : Readings) :
    Except OrchestratorError (Orchestrator ω × Workflow × Agent ω) :=
  match workflow.status with
  | .completed | .cancelled => .error (.terminalState workflow.id)
  | _ =>
    match self.registry.get workflow.kind with
    | none => .error (.noAgent workflow.kind)
    | some agent =>
      match markRunning workflow r.running with
      | .error e => .error (.transition e)
      | .ok workflow =>
        .ok ({ self with audit := self.audit.recordWorkflowStarted workflow.id r.started },
          workflow, agent)

/-- The part of `run_workflow` after the agent has returned. -/
def Orchestrator.settle (workflow : Workflow) (r : Readings) :
    Except String Value → Orchestrator ω × Workflow × Except OrchestratorError Value
  | .ok value =>
    match markCompleted workflow value r.settled r.completedAt with
    | .error e => (self, workflow, .error (.transition e))
    | .ok workflow =>
      ({ self with
          audit := self.audit.recordWorkflowCompleted workflow.id value r.finished },
        workflow, .ok value)
  | .error errMsg =>
    match markFailed workflow ("agent error: " ++ errMsg) r.settled with
    | .error e => (self, workflow, .error (.transition e))
    | .ok workflow =>
      let decision := self.shouldRetry workflow r.jitter
      if decision.shouldRetry then
        match retry workflow r.reset with
        | .error e => (self, workflow, .error (.transition e))
        | .ok workflow =>
          ({ self with
              audit := self.audit.recordWorkflowFailed workflow.id
                ("agent failed (will retry): " ++ errMsg) r.finished },
            workflow,
            .error (.agentFailed ("agent failed, retrying in " ++ toString decision.delayMs ++
              "ms: " ++ errMsg)))
      else
        let workflow :=
          { workflow with
            error := some ("agent failed after " ++ toString workflow.attempts ++
              " attempts: " ++ errMsg) }
        let audit := self.audit.recordWorkflowFailed workflow.id errMsg r.finished
        let audit := audit.recordEscalation (some workflow.id) .high
          ("Workflow " ++ workflow.id ++ " permanently failed: " ++ errMsg) r.escalated
        ({ self with audit }, workflow, .error (.agentFailed errMsg))

/-- What the agent answers when the call reaches it; its context is dropped afterwards. -/
def Orchestrator.invocation (workflow : Workflow) (world : ω) (r : Readings) :
    Option (Except String Value) :=
  match self.dispatch workflow r with
  | .error _ => none
  | .ok (_, workflow, agent) => some (agent.run world workflow .new).2

def Orchestrator.runWorkflow (workflow : Workflow) (world : ω) (r : Readings) :
    Orchestrator ω × Workflow × Except OrchestratorError Value :=
  match self.dispatch workflow r with
  | .error e => (self, workflow, .error e)
  | .ok (self, workflow, agent) =>
    let (_, result) := agent.run world workflow .new
    self.settle workflow r result

end Methods

end BusinessOs.Core.Dispatch
