/- Source: verification/Workflow.lean, rust/src/state_machine.rs, rust/src/types.rs
   digest: The abstract machines of the workflow and of the task, and what they are to the tables of
     the engine. -/

import BusinessOs.Core.StateMachine

set_option autoImplicit false
set_option relaxedAutoImplicit false

namespace BusinessOs.Core.Machines

open BusinessOs.Core.Types BusinessOs.Core.StateMachine

def stepB : WorkflowStatus → WorkflowStatus → Bool
  | .pending, .running => true
  | .running, .completed => true
  | .running, .failed => true
  | .running, .waitingForHuman => true
  | .waitingForHuman, .running => true
  | .waitingForHuman, .completed => true
  | .waitingForHuman, .failed => true
  | .failed, .pending => true
  | _, _ => false

def cancelB : WorkflowStatus → WorkflowStatus → Bool
  | .pending, .cancelled => true
  | .running, .cancelled => true
  | .waitingForHuman, .cancelled => true
  | .failed, .cancelled => true
  | _, _ => false

/-- Steps of `transition` and of `mark_cancelled`. -/
def Exec (a b : WorkflowStatus) : Prop := (stepB a b || cancelB a b) = true

instance (a b : WorkflowStatus) : Decidable (Exec a b) :=
  inferInstanceAs (Decidable (_ = true))

/-- The declarative table of `types.rs`. -/
def stepTB : WorkflowStatus → WorkflowStatus → Bool
  | .pending, .running => true
  | .pending, .cancelled => true
  | .running, .waitingForHuman => true
  | .running, .completed => true
  | .running, .failed => true
  | .running, .cancelled => true
  | .waitingForHuman, .running => true
  | .waitingForHuman, .completed => true
  | .waitingForHuman, .failed => true
  | .waitingForHuman, .cancelled => true
  | .failed, .running => true
  | _, _ => false

def validTransitions : WorkflowStatus → List WorkflowStatus
  | .pending => [.running, .cancelled]
  | .running => [.waitingForHuman, .completed, .failed, .cancelled]
  | .waitingForHuman => [.running, .completed, .failed, .cancelled]
  | .completed => []
  | .failed => [.running]
  | .cancelled => []

def canTransitionTo (status target : WorkflowStatus) : Bool :=
  (validTransitions status).contains target

def isTerminal (status : WorkflowStatus) : Bool := status == .completed || status == .cancelled

def taskStepB : TaskStatus → TaskStatus → Bool
  | .queued, .running => true
  | .running, .completed => true
  | .running, .failed => true
  | .running, .escalated => true
  | .escalated, .running => true
  | _, _ => false

/-! The tables of the engine. -/

theorem canTransition_eq (a b : WorkflowStatus) : canTransition a b = stepB a b := by
  cases a <;> cases b <;> rfl

theorem canTransitionTo_eq (a b : WorkflowStatus) : canTransitionTo a b = stepTB a b := by
  cases a <;> cases b <;> rfl

/-- The declarative table differs from the machine in what a failed workflow may do, and only
there. -/
theorem tables_agree_iff (a : WorkflowStatus) :
    (∀ b, canTransitionTo a b = true ↔ Exec a b) ↔ a ≠ .failed := by
  cases a with
  | failed => exact iff_of_false (fun law => absurd ((law .running).mp rfl) (by decide)) (by simp)
  | _ =>
    refine iff_of_true (fun b => ?_) (by simp)
    cases b <;> decide

/-- The ends of the machine are the terminal states. -/
theorem exec_end_iff (a : WorkflowStatus) : (∀ b, ¬ Exec a b) ↔ isTerminal a = true := by
  cases a with
  | completed | cancelled => exact iff_of_true (fun b => by cases b <;> decide) rfl
  | failed => exact iff_of_false (fun law => law .pending (by decide)) (by decide)
  | pending | waitingForHuman =>
    exact iff_of_false (fun law => law .running (by decide)) (by decide)
  | running => exact iff_of_false (fun law => law .completed (by decide)) (by decide)

end BusinessOs.Core.Machines
