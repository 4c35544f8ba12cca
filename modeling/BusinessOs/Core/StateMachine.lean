/- Source: rust/src/state_machine.rs
   digest: The workflow and approval transitions, and what each of them changes. -/

import BusinessOs.Core.Types
import Mathlib.Tactic.SplitIfs

set_option autoImplicit false
set_option relaxedAutoImplicit false

namespace BusinessOs.Core.StateMachine

open BusinessOs.Lib.Json.Tree BusinessOs.Core.Types

inductive TransitionError
  | invalidTransition (source target : WorkflowStatus)
  | maxAttemptsExceeded (maxAttempts : UInt32)
  | invalidTaskTransition (source target : TaskStatus)
  | alreadyDecided
  deriving DecidableEq, Repr

def canTransition : WorkflowStatus → WorkflowStatus → Bool
  | .pending, target => target == .running
  | .running, target =>
    target == .completed || target == .failed || target == .waitingForHuman
  | .waitingForHuman, target =>
    target == .running || target == .completed || target == .failed
  | .failed, target => target == .pending
  | .completed, _ => false
  | .cancelled, _ => false

def transition (workflow : Workflow) (target : WorkflowStatus) (now : ℤ) :
    Except TransitionError Workflow :=
  if canTransition workflow.status target then
    .ok { workflow with status := target, updatedAt := now }
  else .error (.invalidTransition workflow.status target)

/-- A transition that is taken was allowed, and changes the status and the time of the update. -/
theorem transition_ok {workflow next : Workflow} {target : WorkflowStatus} {now : ℤ}
    (h : transition workflow target now = .ok next) :
    canTransition workflow.status target = true ∧
      next = { workflow with status := target, updatedAt := now } := by
  unfold transition at h
  split_ifs at h with allowed
  exact ⟨allowed, (Except.ok.inj h).symm⟩

def markRunning (workflow : Workflow) (now : ℤ) : Except TransitionError Workflow := do
  let workflow ← transition workflow .running now
  pure { workflow with attempts := workflow.attempts + 1 }

/-- The clock is read for `updated_at` and again for `completed_at`. -/
def markCompleted (workflow : Workflow) (result : Value) (now completedAt : ℤ) :
    Except TransitionError Workflow := do
  let workflow ← transition workflow .completed now
  pure { workflow with result := some result, completedAt := some completedAt }

def markFailed (workflow : Workflow) (error : String) (now : ℤ) :
    Except TransitionError Workflow := do
  let workflow ← transition workflow .failed now
  pure { workflow with error := some error }

def markWaitingForHuman (workflow : Workflow) (now : ℤ) : Except TransitionError Workflow :=
  transition workflow .waitingForHuman now

def markCancelled (workflow : Workflow) (now : ℤ) : Except TransitionError Workflow :=
  match workflow.status with
  | .completed | .cancelled => .error (.invalidTransition workflow.status .cancelled)
  | _ => .ok { workflow with status := .cancelled, updatedAt := now }

/-- Only a workflow that is not at its end is cancelled. -/
theorem markCancelled_ok {workflow next : Workflow} {now : ℤ}
    (h : markCancelled workflow now = .ok next) :
    workflow.status ≠ .completed ∧ workflow.status ≠ .cancelled ∧
      next = { workflow with status := .cancelled, updatedAt := now } := by
  unfold markCancelled at h
  cases status : workflow.status <;> simp [status] at h ⊢ <;> exact h.symm

def retry (workflow : Workflow) (now : ℤ) : Except TransitionError Workflow :=
  if workflow.maxAttempts ≤ workflow.attempts then
    .error (.maxAttemptsExceeded workflow.maxAttempts)
  else transition workflow .pending now

/-- `ApprovalStateMachine::decide`. -/
def decideApproval (approval : HumanApproval) (decision : ApprovalDecision) (decidedBy : String)
    (note : Option String) (now : ℤ) : Except TransitionError HumanApproval :=
  if approval.status ≠ .opened then .error .alreadyDecided
  else .ok
    { approval with
      status := match decision with
        | .approved => .approved
        | .rejected => .rejected
      decision := some decision
      decidedBy := some decidedBy
      decisionNote := note
      note
      decidedAt := some now
      updatedAt := now }

end BusinessOs.Core.StateMachine
