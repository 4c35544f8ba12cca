/- Source: rust/src/state_machine.rs (WorkflowStateMachine)
   digest: The attempt counter counts the starts of a workflow, as long as nobody resumes it. -/

import BusinessOs.Core.StateMachine
import BusinessOs.Lib.Chrono
import BusinessOs.Lib.Execution

set_option autoImplicit false
set_option relaxedAutoImplicit false

namespace BusinessOs.Core.AttemptCounts

open BusinessOs.Lib.Chrono BusinessOs.Lib.Execution BusinessOs.Lib.Json.Tree
open BusinessOs.Core.Types BusinessOs.Core.StateMachine

/-- The six convenience methods. -/
inductive Call
  | markRunning (now : ℤ)
  | markCompleted (result : Value) (now completedAt : ℤ)
  | markFailed (error : String) (now : ℤ)
  | markWaitingForHuman (now : ℤ)
  | markCancelled (now : ℤ)
  | retry (now : ℤ)

def attempt (workflow : Workflow) : Call → Except TransitionError Workflow
  | .markRunning now => markRunning workflow now
  | .markCompleted result now completedAt => markCompleted workflow result now completedAt
  | .markFailed error now => markFailed workflow error now
  | .markWaitingForHuman now => markWaitingForHuman workflow now
  | .markCancelled now => markCancelled workflow now
  | .retry now => retry workflow now

/-- A workflow, and how often its status has moved from `Pending` to `Running`. -/
structure World where
  workflow : Workflow
  starts : ℕ

def fresh (id : String) (maxAttempts : UInt32) (now : ℤ) : World :=
  ⟨Workflow.new id maxAttempts now, 0⟩

/-- A call that fails leaves the workflow as it is. -/
def perform (w : World) (call : Call) : World :=
  match attempt w.workflow call with
  | .error _ => w
  | .ok workflow =>
    let starts := w.workflow.status = .pending ∧ workflow.status = .running
    ⟨workflow, if starts then w.starts + 1 else w.starts⟩

def Step (w : World) (call : Call) (t : World) : Prop := perform w call = t

/-- The attempts that a workflow has at most. -/
def limit (w : World) : ℕ := max 1 w.workflow.maxAttempts.toNat

/-- Attempts count starts, and stay within the limit. -/
def Counts (w : World) : Prop :=
  w.workflow.attempts.toNat = w.starts ∧ w.workflow.attempts.toNat ≤ limit w

/-- A workflow that may start again has an attempt left. -/
def Room (w : World) : Prop := w.workflow.status = .pending → w.starts < limit w

/-- `mark_running` also takes a workflow back that waits for a human. -/
def Resumes (w : World) (call : Call) : Prop :=
  w.workflow.status = .waitingForHuman ∧ ∃ now, call = .markRunning now

/-- What a call that succeeds can do to the status and to the counter. -/
inductive Attempted (s t : Workflow) (call : Call) : Prop
  | started (now : ℤ) (same : call = .markRunning now)
      (before : s.status = .pending ∨ s.status = .waitingForHuman) (after : t.status = .running)
      (attempts : t.attempts = s.attempts + 1) (maxAttempts : t.maxAttempts = s.maxAttempts)
  | moved (other : ∀ now, call ≠ .markRunning now) (after : t.status ≠ .running)
      (retried : t.status = .pending → s.attempts < s.maxAttempts)
      (attempts : t.attempts = s.attempts) (maxAttempts : t.maxAttempts = s.maxAttempts)

theorem attempt_ok {s t : Workflow} {call : Call} (h : attempt s call = .ok t) :
    Attempted s t call := by
  cases call with
  | markRunning now =>
    obtain ⟨running, moves, rest⟩ := bind_eq_ok h
    obtain ⟨allowed, rfl⟩ := transition_ok moves
    obtain rfl := Except.ok.inj rest
    refine .started now rfl ?_ rfl rfl rfl
    cases status : s.status <;> simp [status, canTransition] at allowed ⊢
  | markCompleted result now completedAt =>
    obtain ⟨completed, moves, rest⟩ := bind_eq_ok h
    obtain ⟨_, rfl⟩ := transition_ok moves
    obtain rfl := Except.ok.inj rest
    exact .moved (by simp) (by simp) (by simp) rfl rfl
  | markFailed error now =>
    obtain ⟨failed, moves, rest⟩ := bind_eq_ok h
    obtain ⟨_, rfl⟩ := transition_ok moves
    obtain rfl := Except.ok.inj rest
    exact .moved (by simp) (by simp) (by simp) rfl rfl
  | markWaitingForHuman now =>
    obtain ⟨_, rfl⟩ := transition_ok h
    exact .moved (by simp) (by simp) (by simp) rfl rfl
  | markCancelled now =>
    obtain ⟨_, _, rfl⟩ := markCancelled_ok h
    exact .moved (by simp) (by simp) (by simp) rfl rfl
  | retry now =>
    unfold attempt retry at h
    split_ifs at h with used
    obtain ⟨_, rfl⟩ := transition_ok h
    exact .moved (by simp) (by simp) (fun _ => UInt32.not_le.mp used) rfl rfl

/-- A call leaves the counters as they are, starts the workflow, or resumes it. -/
theorem step_cases {s t : World} {call : Call} (step : Step s call t) :
    t.workflow.maxAttempts = s.workflow.maxAttempts ∧
      ((¬ Resumes s call ∧ t.workflow.attempts = s.workflow.attempts ∧ t.starts = s.starts ∧
          (t.workflow.status = .pending →
            s.workflow.status = .pending ∨ s.workflow.attempts < s.workflow.maxAttempts)) ∨
        (¬ Resumes s call ∧ s.workflow.status = .pending ∧ t.workflow.status = .running ∧
          t.workflow.attempts = s.workflow.attempts + 1 ∧ t.starts = s.starts + 1) ∨
        (Resumes s call ∧ t.workflow.status = .running ∧
          t.workflow.attempts = s.workflow.attempts + 1 ∧ t.starts = s.starts)) := by
  unfold Step perform at step
  cases made : attempt s.workflow call with
  | error e =>
    rw [made] at step
    subst step
    have notResumed : ¬ Resumes s call := by
      rintro ⟨waiting, now, rfl⟩
      simp [attempt, markRunning, transition, waiting, canTransition] at made
    exact ⟨rfl, .inl ⟨notResumed, rfl, rfl, .inl⟩⟩
  | ok workflow =>
    rw [made] at step
    subst step
    cases attempt_ok made with
    | moved other after retried attempts maxAttempts =>
      refine ⟨maxAttempts, .inl ⟨?_, attempts, ?_, fun pending => .inr (retried pending)⟩⟩
      · rintro ⟨_, now, same⟩
        exact other now same
      · simp [after]
    | started now same before after attempts maxAttempts =>
      refine ⟨maxAttempts, .inr ?_⟩
      rcases before with pending | waiting
      · refine .inl ⟨?_, pending, after, attempts, by simp [pending, after]⟩
        rintro ⟨waiting, _⟩
        exact absurd (pending.symm.trans waiting) (by decide)
      · exact .inr ⟨⟨waiting, now, same⟩, after, attempts, by simp [waiting]⟩

/-- The counter goes on counting exactly where nobody resumes the workflow. -/
theorem step_counts {s t : World} {call : Call} (room : Room s) (counts : Counts s)
    (step : Step s call t) : Counts t ↔ ¬ Resumes s call := by
  obtain ⟨attempts, bound⟩ := counts
  obtain ⟨maxAttempts, ⟨passes, same, starts, _⟩ | ⟨passes, pending, _, raised, starts⟩ |
    ⟨resumes, _, raised, starts⟩⟩ := step_cases step
  · have kept : Counts t := by
      unfold Counts limit
      rw [same, starts, maxAttempts]
      exact ⟨attempts, bound⟩
    exact ⟨fun _ => passes, fun _ => kept⟩
  · have left := room pending
    have small := s.workflow.maxAttempts.toNat_lt
    have one : (s.workflow.attempts + 1).toNat = s.workflow.attempts.toNat + 1 := by
      unfold limit at left
      rw [UInt32.toNat_add, UInt32.toNat_one]
      omega
    have kept : Counts t := by
      unfold Counts limit at *
      rw [raised, starts, maxAttempts, one]
      omega
    exact ⟨fun _ => passes, fun _ => kept⟩
  · -- the counter has moved and the starts have not, also where it wraps
    have moved : (s.workflow.attempts + 1).toNat ≠ s.workflow.attempts.toNat := by
      have small := s.workflow.attempts.toNat_lt
      rw [UInt32.toNat_add, UInt32.toNat_one]
      omega
    constructor
    · rintro ⟨counted, _⟩
      rw [raised, starts, ← attempts] at counted
      exact absurd counted moved
    · exact fun passes => absurd resumes passes

theorem step_room {s t : World} {call : Call} (room : Room s) (counts : Counts s)
    (passes : ¬ Resumes s call) (step : Step s call t) : Room t := by
  obtain ⟨attempts, _⟩ := counts
  intro pending
  obtain ⟨maxAttempts, ⟨_, _, starts, retried⟩ | ⟨_, _, running, _⟩ | ⟨resumes, _⟩⟩ :=
    step_cases step
  · have same : limit t = limit s := by rw [limit, limit, maxAttempts]
    rw [starts, same]
    rcases retried pending with before | left
    · exact room before
    · have below : s.workflow.attempts.toNat < s.workflow.maxAttempts.toNat := left
      unfold limit
      omega
  · exact absurd (pending.symm.trans running) (by decide)
  · exact absurd resumes passes

/-- Attempts count starts and stay within the limit at every state of a run exactly when no
`mark_running` of the run takes a workflow back from its human. -/
theorem attempts_count_iff (id : String) (maxAttempts : UInt32) (now : ℤ) (calls : List Call)
    (t : World) :
    Run (Kept Counts Step) (fresh id maxAttempts now) calls t ↔
      Run (Guarded (fun w call => ¬ Resumes w call) Step) (fresh id maxAttempts now) calls t := by
  apply Run.kept_iff_guarded (J := Room)
  · intro s call t room counts passes step
    exact step_room room counts passes step
  · intro s call t room counts step
    exact step_counts room counts step
  · intro _
    have zero : (fresh id maxAttempts now).starts = 0 := rfl
    rw [zero, limit]
    omega
  · exact ⟨rfl, Nat.zero_le _⟩

/-- A workflow with one attempt waits for its human and is resumed: two attempts are counted, beyond
the limit, for a single start. -/
theorem attempts_count_resumed :
    ∃ t, Run Step (fresh "wf" 1 0) [.markRunning 1, .markWaitingForHuman 2, .markRunning 3] t ∧
      t.workflow.attempts = 2 ∧ t.starts = 1 ∧ limit t = 1 ∧ ¬ Counts t := by
  refine ⟨_, .cons rfl (.cons rfl (.single rfl)), by decide, by decide, by decide, ?_⟩
  rintro ⟨counted, _⟩
  exact absurd counted (by decide)

end BusinessOs.Core.AttemptCounts
