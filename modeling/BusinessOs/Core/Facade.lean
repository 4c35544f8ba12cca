/- Source: rust/src/pipeline.rs
   digest: The façade over approvals, audit trail, orchestrator and request guard. -/

import BusinessOs.Core.ApprovalRuns
import BusinessOs.Core.Dispatch
import BusinessOs.Core.RateLimit.Guard

set_option autoImplicit false
set_option relaxedAutoImplicit false

namespace BusinessOs.Core.Facade

open BusinessOs.Lib.Json.Tree BusinessOs.Lib.Chrono
open BusinessOs.Core.Types BusinessOs.Core.Approval BusinessOs.Core.Audit BusinessOs.Core.Dispatch
open BusinessOs.Core.RateLimit.Bucket BusinessOs.Core.RateLimit.Breaker
open BusinessOs.Core.RateLimit.Guard

universe u

/-- The settings of the security service are left out, with the service and the scoring. -/
structure BusinessOSConfig where
  rateLimitMaxTokens : UInt32
  rateLimitRefillRate : UInt32
  circuitBreakerFailureThreshold : UInt32
  circuitBreakerTimeoutSecs : Int64
  maxWorkflowRetries : UInt32
  deriving DecidableEq

def BusinessOSConfig.default : BusinessOSConfig := ⟨100, 10, 5, 60, 3⟩

structure BusinessOS (ω : Type u) where
  audit : AuditService
  approvals : ApprovalService
  orchestrator : Orchestrator ω
  guard : RequestGuard
  config : BusinessOSConfig

variable {ω : Type u}

/-- The orchestrator gets an audit log of its own. -/
def BusinessOS.new (config : BusinessOSConfig) : BusinessOS ω where
  audit := .new
  approvals := .new
  orchestrator := .withAudit
    { OrchestratorConfig.default with maxRetries := config.maxWorkflowRetries } .new
  guard := .new ⟨config.rateLimitMaxTokens, config.rateLimitRefillRate, 100⟩
  config

section Methods

variable (self : BusinessOS ω)

def BusinessOS.withAgent (kind : WorkflowKind) (agent : Agent ω) : BusinessOS ω :=
  { self with orchestrator := self.orchestrator.withAgent kind agent }

/-- The other two settings of the breaker are the default ones. -/
def BusinessOS.registerCircuit (name : String) (failureThreshold : UInt32)
    (timeoutSecs : Int64) : BusinessOS ω :=
  { self with guard := self.guard.registerCircuit name ⟨failureThreshold, 3, timeoutSecs, 3⟩ }

/-- The workflow is handed out only when its one run succeeds. -/
def BusinessOS.submitAndRun (kind : WorkflowKind) (payload : Value) (source uuid : String)
    (now : ℤ) (stamp : Stamp) (world : ω) (r : Readings) :
    BusinessOS ω × Except OrchestratorError Workflow :=
  let (orchestrator, workflow) :=
    self.orchestrator.submitWorkflow kind payload source uuid now stamp
  let (orchestrator, workflow, result) := orchestrator.runWorkflow workflow world r
  ({ self with orchestrator }, result.map fun _ => workflow)

def BusinessOS.requestApproval (workflowId title reason : String) (action : Value)
    (uuid : String) (now : ℤ) (stamp : Stamp) : BusinessOS ω × HumanApproval :=
  let (approvals, approval) :=
    self.approvals.requestApproval workflowId title reason action uuid now
  let audit := self.audit.recordApprovalRequested workflowId title stamp
  ({ self with approvals, audit }, approval)

/-- What both decision calls do with the answer of the approval service. -/
def BusinessOS.recordDecision (answer : ApprovalService × Except ApprovalError HumanApproval)
    (record : String → AuditService) : BusinessOS ω × Except ApprovalError HumanApproval :=
  let (approvals, result) := answer
  match result with
  | .error e => ({ self with approvals }, .error e)
  | .ok approval => ({ self with approvals, audit := record approval.workflowId }, .ok approval)

def BusinessOS.approve (approvalId decidedBy : String) (now : ℤ) (stamp : Stamp) :
    BusinessOS ω × Except ApprovalError HumanApproval :=
  self.recordDecision (self.approvals.approve approvalId decidedBy none now) fun workflowId =>
    self.audit.recordApprovalGranted workflowId decidedBy stamp

def BusinessOS.reject (approvalId decidedBy note : String) (now : ℤ) (stamp : Stamp) :
    BusinessOS ω × Except ApprovalError HumanApproval :=
  self.recordDecision (self.approvals.reject approvalId decidedBy note now) fun workflowId =>
    self.audit.recordApprovalRejected workflowId decidedBy note stamp

def BusinessOS.checkRateLimit (key : String) (now : ℤ) :
    Except Panic (BusinessOS ω × Except GuardError Unit) :=
  match self.guard.check key none now now with
  | .error panic => .error panic
  | .ok (guard, result) => .ok ({ self with guard }, result)

/-- The entries of the façade's own log, then those of the orchestrator's. -/
def BusinessOS.auditTrail (workflowId : String) : List AuditEntry :=
  self.audit.entriesForWorkflow workflowId ++
    self.orchestrator.audit.entriesForWorkflow workflowId

end Methods

/-! Runs of façade calls; a call carries the UUIDs and clock readings that it takes. -/

inductive Call (ω : Type u)
  | withAgent (kind : WorkflowKind) (agent : Agent ω)
  | registerCircuit (name : String) (failureThreshold : UInt32) (timeoutSecs : Int64)
  | submitAndRun (kind : WorkflowKind) (payload : Value) (source uuid : String) (now : ℤ)
      (stamp : Stamp) (world : ω) (r : Readings)
  | requestApproval (workflowId title reason : String) (action : Value) (uuid : String) (now : ℤ)
      (stamp : Stamp)
  | approve (approvalId decidedBy : String) (now : ℤ) (stamp : Stamp)
  | reject (approvalId decidedBy note : String) (now : ℤ) (stamp : Stamp)
  | checkRateLimit (key : String) (now : ℤ)

inductive Reply
  | done
  | ran (result : Except OrchestratorError Workflow)
  | requested (approval : HumanApproval)
  | decided (result : Except ApprovalError HumanApproval)
  | checked (result : Except GuardError Unit)

structure Event (ω : Type u) where
  call : Call ω
  reply : Reply

/-- A call that panics does not return. -/
def perform (os : BusinessOS ω) : Call ω → Option (BusinessOS ω × Reply)
  | .withAgent kind agent => some (os.withAgent kind agent, .done)
  | .registerCircuit name failureThreshold timeoutSecs =>
    some (os.registerCircuit name failureThreshold timeoutSecs, .done)
  | .submitAndRun kind payload source uuid now stamp world r =>
    let (os, result) := os.submitAndRun kind payload source uuid now stamp world r
    some (os, .ran result)
  | .requestApproval workflowId title reason action uuid now stamp =>
    let (os, approval) := os.requestApproval workflowId title reason action uuid now stamp
    some (os, .requested approval)
  | .approve approvalId decidedBy now stamp =>
    let (os, result) := os.approve approvalId decidedBy now stamp
    some (os, .decided result)
  | .reject approvalId decidedBy note now stamp =>
    let (os, result) := os.reject approvalId decidedBy note now stamp
    some (os, .decided result)
  | .checkRateLimit key now =>
    match os.checkRateLimit key now with
    | .error _ => none
    | .ok (os, result) => some (os, .checked result)

def Step (os : BusinessOS ω) (e : Event ω) (next : BusinessOS ω) : Prop :=
  perform os e.call = some (next, e.reply)

/-- The decision that a call asks for. -/
def Call.decision : Call ω → Option Decision
  | .approve id decidedBy now _ => some ⟨id, .approved, decidedBy, none, now⟩
  | .reject id decidedBy note now _ => some ⟨id, .rejected, decidedBy, some note, now⟩
  | _ => none

/-- The stamp of the entry that a call makes in the façade's log. -/
def Call.stamp : Call ω → Option Stamp
  | .requestApproval _ _ _ _ _ _ stamp | .approve _ _ _ stamp | .reject _ _ _ _ stamp => some stamp
  | _ => none

/-- The workflow that this entry is about. -/
def BusinessOS.subject (os : BusinessOS ω) : Call ω → Option String
  | .requestApproval workflowId _ _ _ _ _ _ => some workflowId
  | .approve id _ _ _ | .reject id _ _ _ _ =>
    (os.approvals.pending.find? fun a => a.id == id).map HumanApproval.workflowId
  | _ => none

/-- The action of the entry for a decision. -/
def verdict : ApprovalDecision → AuditAction
  | .approved => .approvalGranted
  | .rejected => .approvalRejected

/-- Every pending approval is open. -/
def PendingOpen (os : BusinessOS ω) : Prop := ∀ a ∈ os.approvals.pending, a.status = .opened

/-- What the façade's calls do. -/
inductive Change (os : BusinessOS ω) : Event ω → BusinessOS ω → Prop
  | withAgent (kind : WorkflowKind) (agent : Agent ω) :
      Change os ⟨.withAgent kind agent, .done⟩ (os.withAgent kind agent)
  | guard {e : Event ω} (guard : RequestGuard) (decision : e.call.decision = none)
      (stamp : e.call.stamp = none) (subject : os.subject e.call = none)
      (ran : ∀ result, e.reply ≠ .ran result) (decided : ∀ result, e.reply ≠ .decided result) :
      Change os e { os with guard }
  | submit (kind : WorkflowKind) (payload : Value) (source uuid : String) (now : ℤ)
      (stamp : Stamp) (world : ω) (r : Readings) :
      Change os
        ⟨.submitAndRun kind payload source uuid now stamp world r,
          .ran (os.submitAndRun kind payload source uuid now stamp world r).2⟩
        (os.submitAndRun kind payload source uuid now stamp world r).1
  | request (workflowId title reason : String) (action : Value) (uuid : String) (now : ℤ)
      (stamp : Stamp) :
      Change os
        ⟨.requestApproval workflowId title reason action uuid now stamp,
          .requested (os.requestApproval workflowId title reason action uuid now stamp).2⟩
        (os.requestApproval workflowId title reason action uuid now stamp).1
  | refuse {e : Event ω} {d : Decision} (decision : e.call.decision = some d)
      (subject : os.subject e.call = none)
      (reply : e.reply = .decided (.error (.notFound d.id))) : Change os e os
  | decide {e : Event ω} {d : Decision} {i : ℕ} {a : HumanApproval} {stamp : Stamp}
      {entry : AuditEntry} (decision : e.call.decision = some d)
      (stamped : e.call.stamp = some stamp)
      (at_ : os.approvals.pending[i]? = some a)
      (subject : os.subject e.call = some a.workflowId)
      (reply : e.reply = .decided (.ok (d.record a)))
      (action : entry.action = verdict d.decision) (about : entry.workflowId = some a.workflowId)
      (actor : entry.actor = d.decidedBy) (timestamp : entry.timestamp = stamp.timestamp) :
      Change os e
        { os with
          approvals := ⟨os.approvals.pending.eraseIdx i, os.approvals.decided ++ [d.record a]⟩
          audit := ⟨os.audit.entries ++ [entry]⟩ }

/-- A decision call, over a service whose pending records are open. -/
theorem recordDecision_change {os : BusinessOS ω} (open_ : PendingOpen os) {call : Call ω}
    {id decidedBy : String} {decision : ApprovalDecision} {note : Option String} {now : ℤ}
    (stamp : Stamp) {record : String → AuditService}
    (asks : call.decision = some ⟨id, decision, decidedBy, note, now⟩)
    (stamped : call.stamp = some stamp)
    (subject : os.subject call =
      (os.approvals.pending.find? fun a => a.id == id).map HumanApproval.workflowId)
    (recorded : ∀ workflowId, ∃ entry, record workflowId = ⟨os.audit.entries ++ [entry]⟩ ∧
      entry.action = verdict decision ∧ entry.workflowId = some workflowId ∧
      entry.actor = decidedBy ∧ entry.timestamp = stamp.timestamp) :
    Change os
      ⟨call, .decided (os.recordDecision
        (os.approvals.decide id decision decidedBy note now) record).2⟩
      (os.recordDecision (os.approvals.decide id decision decidedBy note now) record).1 := by
  rw [List.find?_eq_bind_findIdx?_getElem?] at subject
  rcases decide_cases open_ id decision decidedBy note now with
    ⟨absent, answer⟩ | ⟨i, a, found, at_, _, answer⟩
  · have none_ : os.approvals.pending.findIdx? (fun a => a.id == id) = none := by
      rw [List.findIdx?_eq_none_iff]
      intro a member
      rw [beq_eq_false_iff_ne]
      rintro rfl
      exact absent (List.mem_map_of_mem member)
    rw [none_] at subject
    rw [answer]
    exact .refuse asks subject rfl
  · rw [found, Option.bind_some, at_] at subject
    rw [answer]
    obtain ⟨entry, same, action, about, actor, timestamp⟩ := recorded a.workflowId
    have next := Change.decide (d := ⟨id, decision, decidedBy, note, now⟩) asks stamped at_ subject
      (e := ⟨call, .decided (.ok (Decision.record ⟨id, decision, decidedBy, note, now⟩ a))⟩)
      rfl action about actor timestamp
    rw [← same] at next
    exact next

theorem step_change {os next : BusinessOS ω} {e : Event ω} (open_ : PendingOpen os)
    (step : Step os e next) : Change os e next := by
  obtain ⟨call, reply⟩ := e
  cases call with
  | withAgent kind agent =>
    obtain ⟨rfl, rfl⟩ := Prod.mk.inj (Option.some.inj step)
    exact .withAgent kind agent
  | registerCircuit name failureThreshold timeoutSecs =>
    obtain ⟨rfl, rfl⟩ := Prod.mk.inj (Option.some.inj step)
    exact .guard _ rfl rfl rfl (by simp) (by simp)
  | submitAndRun kind payload source uuid now stamp world r =>
    obtain ⟨rfl, rfl⟩ := Prod.mk.inj (Option.some.inj step)
    exact .submit kind payload source uuid now stamp world r
  | requestApproval workflowId title reason action uuid now stamp =>
    obtain ⟨rfl, rfl⟩ := Prod.mk.inj (Option.some.inj step)
    exact .request workflowId title reason action uuid now stamp
  | approve id decidedBy now stamp =>
    have taken : ((os.approve id decidedBy now stamp).1,
        Reply.decided (os.approve id decidedBy now stamp).2) = (next, reply) := Option.some.inj step
    obtain ⟨rfl, rfl⟩ := Prod.mk.inj taken
    exact recordDecision_change open_ stamp rfl rfl rfl fun _ => ⟨_, rfl, rfl, rfl, rfl, rfl⟩
  | reject id decidedBy note now stamp =>
    have taken : ((os.reject id decidedBy note now stamp).1,
        Reply.decided (os.reject id decidedBy note now stamp).2) = (next, reply) :=
      Option.some.inj step
    obtain ⟨rfl, rfl⟩ := Prod.mk.inj taken
    exact recordDecision_change open_ stamp rfl rfl rfl fun _ => ⟨_, rfl, rfl, rfl, rfl, rfl⟩
  | checkRateLimit key now =>
    unfold Step at step
    dsimp only [perform, BusinessOS.checkRateLimit] at step
    cases checked : os.guard.check key none now now with
    | error panic =>
      rw [checked] at step
      cases step
    | ok answer =>
      rw [checked] at step
      obtain ⟨rfl, rfl⟩ := Prod.mk.inj (Option.some.inj step)
      exact .guard _ rfl rfl rfl (by simp) (by simp)

/-- Pending approvals stay open. -/
theorem Change.pendingOpen {os next : BusinessOS ω} {e : Event ω} (change : Change os e next)
    (open_ : PendingOpen os) : PendingOpen next := by
  cases change with
  | request workflowId title reason action uuid now stamp =>
    intro a member
    rcases List.mem_append.mp member with old | last
    · exact open_ a old
    · rw [List.mem_singleton.mp last]
      rfl
  | decide _ _ at_ =>
    intro a member
    exact open_ a ((List.eraseIdx_sublist _ _).subset member)
  | _ => exact open_

end BusinessOs.Core.Facade
