/- Source: rust/src/state_machine.rs (WorkflowStateMachine), verification/Workflow.lean
   digest: The traces of a workflow under the engine's calls are the paths of the abstract machine;
     with the counted calls only, those whose retries come before the last attempt. -/

import BusinessOs.Core.AttemptCounts
import BusinessOs.Core.Machines
import BusinessOs.Lib.Transitions

set_option autoImplicit false
set_option relaxedAutoImplicit false

namespace BusinessOs.Core.WorkflowTraces

open BusinessOs.Lib.Chrono BusinessOs.Lib.Json.Tree BusinessOs.Lib.Transitions
open BusinessOs.Core.Types BusinessOs.Core.StateMachine BusinessOs.Core.Machines
open BusinessOs.Core.AttemptCounts (attempt)

/-- The state machine's calls: the low-level primitive, and the methods over it. -/
inductive Call
  | transition (target : WorkflowStatus) (now : ℤ)
  | method (call : AttemptCounts.Call)

def invoke (workflow : Workflow) : Call → Except TransitionError Workflow
  | .transition target now => transition workflow target now
  | .method call => attempt workflow call

/-- All calls, and the status that they move. -/
def api : Calls Workflow Call TransitionError WorkflowStatus where
  state := Workflow.status
  call := invoke

/-- A status, with the attempts behind it and the ones allowed. -/
structure Count where
  status : WorkflowStatus
  attempts : ℕ
  maxAttempts : ℕ
  deriving DecidableEq

/-- The methods alone, and what they move and count. -/
def methods : Calls Workflow AttemptCounts.Call TransitionError Count where
  state workflow := ⟨workflow.status, workflow.attempts.toNat, workflow.maxAttempts.toNat⟩
  call := attempt

/-- A step of the abstract machine that counts in 32 bits whoever comes to run, and goes back to
`Pending` only with an attempt left. -/
structure Counted (a b : Count) : Prop where
  step : Exec a.status b.status
  attempts : b.attempts =
    if b.status = .running then (a.attempts + 1) % 2 ^ 32 else a.attempts
  maxAttempts : b.maxAttempts = a.maxAttempts
  retries : b.status = .pending → a.attempts < a.maxAttempts

section Steps

variable {workflow next : Workflow} {target : WorkflowStatus} {now : ℤ}

theorem exec_of_can {a b : WorkflowStatus} (allowed : canTransition a b = true) : Exec a b := by
  rw [canTransition_eq] at allowed
  unfold Exec
  rw [allowed, Bool.true_or]

theorem exec_cancel {a : WorkflowStatus} (unfinished : a ≠ .completed) (live : a ≠ .cancelled) :
    Exec a .cancelled := by
  cases a with
  | completed => exact absurd rfl unfinished
  | cancelled => exact absurd rfl live
  | _ => decide

/-- A step of the abstract machine is a cancellation, or in the engine's table. -/
theorem can_of_exec {a b : WorkflowStatus} (step : Exec a b) :
    canTransition a b = true ∨ (b = .cancelled ∧ a ≠ .completed ∧ a ≠ .cancelled) := by
  cases b with
  | cancelled =>
    refine .inr ⟨rfl, ?_, ?_⟩
    · rintro rfl
      exact absurd step (by decide)
    · rintro rfl
      exact absurd step (by decide)
  | _ =>
    left
    rw [canTransition_eq]
    cases a <;> first | rfl | exact absurd step (by decide)

theorem transition_of_can (allowed : canTransition workflow.status target = true) :
    transition workflow target now = .ok { workflow with status := target, updatedAt := now } :=
  if_pos allowed

theorem markCancelled_of (unfinished : workflow.status ≠ .completed)
    (live : workflow.status ≠ .cancelled) : markCancelled workflow now =
      .ok { workflow with status := .cancelled, updatedAt := now } := by
  unfold markCancelled
  cases status : workflow.status with
  | completed => exact absurd status unfinished
  | cancelled => exact absurd status live
  | _ => rfl

theorem method_counted {call : AttemptCounts.Call} (made : attempt workflow call = .ok next) :
    Counted (methods.state workflow) (methods.state next) := by
  cases call with
  | markRunning now =>
    obtain ⟨running, moves, rest⟩ := bind_eq_ok made
    obtain ⟨allowed, rfl⟩ := transition_ok moves
    obtain rfl := Except.ok.inj rest
    refine ⟨exec_of_can allowed, ?_, rfl, by simp [methods]⟩
    show (workflow.attempts + 1).toNat = _
    rw [UInt32.toNat_add]
    rfl
  | markCompleted result now completedAt =>
    obtain ⟨completed, moves, rest⟩ := bind_eq_ok made
    obtain ⟨allowed, rfl⟩ := transition_ok moves
    obtain rfl := Except.ok.inj rest
    exact ⟨exec_of_can allowed, rfl, rfl, by simp [methods]⟩
  | markFailed error now =>
    obtain ⟨failed, moves, rest⟩ := bind_eq_ok made
    obtain ⟨allowed, rfl⟩ := transition_ok moves
    obtain rfl := Except.ok.inj rest
    exact ⟨exec_of_can allowed, rfl, rfl, by simp [methods]⟩
  | markWaitingForHuman now =>
    obtain ⟨allowed, rfl⟩ := transition_ok made
    exact ⟨exec_of_can allowed, rfl, rfl, by simp [methods]⟩
  | markCancelled now =>
    obtain ⟨unfinished, live, rfl⟩ := markCancelled_ok made
    exact ⟨exec_cancel unfinished live, rfl, rfl, by simp [methods]⟩
  | retry now =>
    unfold attempt retry at made
    split_ifs at made with used
    obtain ⟨allowed, rfl⟩ := transition_ok made
    exact ⟨exec_of_can allowed, rfl, rfl, fun _ => UInt32.not_le.mp used⟩

theorem method_of_counted {t : Count} (edge : Counted (methods.state workflow) t) :
    ∃ call next, attempt workflow call = .ok next ∧ methods.state next = t := by
  obtain ⟨step, attempts, maxAttempts, retries⟩ := edge
  obtain ⟨status, n, max⟩ := t
  obtain rfl : max = workflow.maxAttempts.toNat := maxAttempts
  rcases can_of_exec step with allowed | ⟨rfl, unfinished, live⟩
  · have moves : transition workflow status 0 = .ok { workflow with status, updatedAt := 0 } :=
      transition_of_can allowed
    cases status with
    | running =>
      obtain rfl : n = (workflow.attempts + 1).toNat := attempts
      exact ⟨.markRunning 0, _, by rw [attempt, markRunning, moves]; rfl, rfl⟩
    | completed =>
      obtain rfl : n = workflow.attempts.toNat := attempts
      exact ⟨.markCompleted .null 0 0, _, by rw [attempt, markCompleted, moves]; rfl, rfl⟩
    | failed =>
      obtain rfl : n = workflow.attempts.toNat := attempts
      exact ⟨.markFailed "" 0, _, by rw [attempt, markFailed, moves]; rfl, rfl⟩
    | waitingForHuman =>
      obtain rfl : n = workflow.attempts.toNat := attempts
      exact ⟨.markWaitingForHuman 0, _, moves, rfl⟩
    | pending =>
      obtain rfl : n = workflow.attempts.toNat := attempts
      have left : ¬ workflow.maxAttempts ≤ workflow.attempts := UInt32.not_le.mpr (retries rfl)
      exact ⟨.retry 0, _, by rw [attempt, retry, if_neg left, moves], rfl⟩
    | cancelled =>
      rw [canTransition_eq] at allowed
      cases before : workflow.status <;> rw [show (methods.state workflow).status = _ from before]
        at allowed <;> cases allowed
  · obtain rfl : n = workflow.attempts.toNat := attempts
    exact ⟨.markCancelled 0, _, markCancelled_of unfinished live, rfl⟩

theorem methods_exact : methods.Exact Counted where
  sound _ _ _ := method_counted
  complete _ _ := method_of_counted

theorem api_exact : api.Exact Exec where
  sound workflow call next made := by
    cases call with
    | transition target now =>
      obtain ⟨allowed, rfl⟩ := transition_ok made
      exact exec_of_can allowed
    | method call => exact (method_counted made).step
  complete workflow target step := by
    rcases can_of_exec step with allowed | ⟨rfl, unfinished, live⟩
    · exact ⟨.transition target 0, _, transition_of_can allowed, rfl⟩
    · exact ⟨.method (.markCancelled 0), _, markCancelled_of unfinished live, rfl⟩

end Steps

theorem exec_pending {a : WorkflowStatus} (step : Exec .pending a) :
    a = .running ∨ a = .cancelled := by
  cases a with
  | running => exact .inl rfl
  | cancelled => exact .inr rfl
  | _ => exact absurd step (by decide)

/-- Nothing completes, fails, waits or is retried before it has run. -/
theorem running_first {before after : List WorkflowStatus} {status : WorkflowStatus}
    (chain : List.IsChain Exec (.pending :: (before ++ status :: after)))
    (ran : status ≠ .running) (live : status ≠ .cancelled) : .running ∈ before := by
  cases before with
  | nil =>
    have first := (List.isChain_cons_cons.mp chain).1
    exact absurd (exec_pending first) (not_or.mpr ⟨ran, live⟩)
  | cons next rest =>
    obtain ⟨first, later⟩ := List.isChain_cons_cons.mp chain
    rcases exec_pending first with rfl | rfl
    · exact List.mem_cons_self
    · -- A cancelled workflow has no next status.
      have ends := (exec_end_iff .cancelled).mpr rfl
      cases rest with
      | nil => exact absurd (List.isChain_cons_cons.mp later).1 (ends _)
      | cons second rest => exact absurd (List.isChain_cons_cons.mp later).1 (ends _)

/-- Each retry of a path comes before the last attempt, `n` of them being used already. -/
def RetriesFit (n max : ℕ) (path : List WorkflowStatus) : Prop :=
  ∀ before after, path = before ++ .pending :: after →
    (n + before.count .running) % 2 ^ 32 < max

theorem retriesFit_nil (n max : ℕ) : RetriesFit n max [] := by
  intro before after split
  cases before <;> cases split

theorem retriesFit_cons {n max : ℕ} {status : WorkflowStatus} {path : List WorkflowStatus}
    (small : n < 2 ^ 32) : RetriesFit n max (status :: path) ↔
      (status = .pending → n < max) ∧
        RetriesFit (if status = .running then (n + 1) % 2 ^ 32 else n) max path := by
  have counts : ∀ before : List WorkflowStatus,
      (n + (status :: before).count .running) % 2 ^ 32 =
        ((if status = .running then (n + 1) % 2 ^ 32 else n) + before.count .running) % 2 ^ 32 := by
    intro before
    rw [List.count_cons]
    by_cases runs : status = .running
    · simp only [runs, beq_self_eq_true, if_true]
      omega
    · simp [runs]
  constructor
  · intro fits
    refine ⟨?_, fun before after split => ?_⟩
    · rintro rfl
      have here := fits [] path rfl
      rwa [List.count_nil, Nat.add_zero, Nat.mod_eq_of_lt small] at here
    · have there := fits (status :: before) after (by rw [split]; rfl)
      rwa [counts] at there
  · rintro ⟨here, rest⟩ before after split
    cases before with
    | nil =>
      obtain ⟨rfl, rfl⟩ := List.cons.inj split
      rw [List.count_nil, Nat.add_zero, Nat.mod_eq_of_lt small]
      exact here rfl
    | cons first before =>
      obtain ⟨rfl, tail⟩ := List.cons.inj split
      rw [counts]
      exact rest before after tail

/-- The statuses of the paths that count. -/
theorem counted_path (status : WorkflowStatus) {n max : ℕ} (small : n < 2 ^ 32)
    (path : List WorkflowStatus) :
    (∃ counts, List.IsChain Counted (⟨status, n, max⟩ :: counts) ∧ counts.map Count.status = path) ↔
      List.IsChain Exec (status :: path) ∧ RetriesFit n max path := by
  induction path generalizing status n with
  | nil =>
    exact iff_of_true ⟨[], .singleton _, rfl⟩ ⟨.singleton _, retriesFit_nil n max⟩
  | cons next path ih =>
    rw [List.isChain_cons_cons, retriesFit_cons small]
    have kept : (if next = .running then (n + 1) % 2 ^ 32 else n) < 2 ^ 32 := by
      split_ifs
      · exact Nat.mod_lt _ (Nat.two_pow_pos 32)
      · exact small
    constructor
    · rintro ⟨counts, chain, same⟩
      obtain ⟨⟨status', m, max'⟩, counts, rfl, rfl, rest⟩ := List.map_eq_cons_iff.mp same
      obtain ⟨edge, later⟩ := List.isChain_cons_cons.mp chain
      obtain rfl : m = if status' = .running then (n + 1) % 2 ^ 32 else n := edge.attempts
      obtain rfl : max' = max := edge.maxAttempts
      obtain ⟨path, fits⟩ := (ih status' kept).mp ⟨counts, later, rest⟩
      exact ⟨⟨edge.step, path⟩, edge.retries, fits⟩
    · rintro ⟨⟨step, chain⟩, retried, fits⟩
      obtain ⟨counts, later, same⟩ := (ih next kept).mpr ⟨chain, fits⟩
      exact ⟨⟨next, _, max⟩ :: counts, .cons_cons ⟨step, rfl, rfl, retried⟩ later,
        congrArg (next :: ·) same⟩

/-- The statuses that the state machine's calls lead a new workflow through, one after the other,
are the paths of the abstract machine from `Pending`; those that its methods lead it through are the
paths whose retries come before the last attempt; and none gets anywhere before it has run. -/
theorem workflow_traces (id : String) (maxAttempts : UInt32) (now : ℤ) :
    (∀ path, (∃ calls, api.trace (.new id maxAttempts now) calls = path) ↔
      List.IsChain Exec (.pending :: path)) ∧
    (∀ path, (∃ calls, (methods.trace (.new id maxAttempts now) calls).map Count.status = path) ↔
      List.IsChain Exec (.pending :: path) ∧ RetriesFit 0 maxAttempts.toNat path) ∧
    ∀ calls before after status,
      api.trace (.new id maxAttempts now) calls = before ++ status :: after →
        status ≠ .running → status ≠ .cancelled → .running ∈ before := by
  refine ⟨fun path => api_exact.traces _ path, fun path => ?_, ?_⟩
  · rw [← counted_path .pending (Nat.two_pow_pos 32) path]
    constructor
    · rintro ⟨calls, same⟩
      exact ⟨_, methods_exact.chain (.new id maxAttempts now) calls, same⟩
    · rintro ⟨counts, chain, same⟩
      obtain ⟨calls, rfl⟩ := (methods_exact.traces (.new id maxAttempts now) counts).mpr chain
      exact ⟨calls, same⟩
  · intro calls before after status split
    have chain := api_exact.chain (.new id maxAttempts now) calls
    rw [split] at chain
    exact running_first chain

/-- A workflow with two attempts fails, is retried and waits. -/
theorem workflow_traces_retried :
    (∃ calls, (methods.trace (.new "wf" 2 0) calls).map Count.status =
      [.running, .failed, .pending, .running, .waitingForHuman]) ∧
    ∀ calls, api.trace (.new "wf" 2 0) calls =
      [.running, .failed, .pending, .running, .waitingForHuman] →
        .running ∈ [WorkflowStatus.running, .failed, .pending, .running] := by
  obtain ⟨_, counted, first⟩ := workflow_traces "wf" 2 0
  refine ⟨(counted _).mpr ⟨by decide, ?_⟩, fun calls traced => ?_⟩
  · refine (retriesFit_cons (by decide)).mpr ⟨by decide, ?_⟩
    refine (retriesFit_cons (by decide)).mpr ⟨by decide, ?_⟩
    refine (retriesFit_cons (by decide)).mpr ⟨by decide, ?_⟩
    refine (retriesFit_cons (by decide)).mpr ⟨by decide, ?_⟩
    exact (retriesFit_cons (by decide)).mpr ⟨by decide, retriesFit_nil _ _⟩
  · exact first calls [.running, .failed, .pending, .running] [] .waitingForHuman traced (by decide)
      (by decide)

end BusinessOs.Core.WorkflowTraces
