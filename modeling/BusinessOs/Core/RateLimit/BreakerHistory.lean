/- Source: rust/src/rate_limit.rs (CircuitBreaker)
   digest: Runs of a circuit breaker, with the moves between its states as their record. -/

import BusinessOs.Core.RateLimit.Breaker
import BusinessOs.Lib.Execution

set_option autoImplicit false
set_option relaxedAutoImplicit false

namespace BusinessOs.Core.RateLimit.BreakerHistory

open BusinessOs.Lib.Chrono BusinessOs.Lib.Execution
open BusinessOs.Core.RateLimit.Breaker

/-- The public calls that change a breaker, with the clocks they read. -/
inductive Op
  | allow (now : ℤ)
  | success
  | failure (failedAt openedAt : ℤ)
  | reset
  deriving DecidableEq, Repr

/-- One call, the answer of an `allow_request`, and the states before and after. -/
structure Entry where
  op : Op
  answer : Option (Except CircuitBreakerError Unit)
  before : CircuitState
  after : CircuitState
  deriving DecidableEq

def perform (self : CircuitBreaker) :
    Op → Except Panic (CircuitBreaker × Option (Except CircuitBreakerError Unit))
  | .allow now => do
    let (self, result) ← self.allowRequest now
    pure (self, some result)
  | .success => pure (self.recordSuccess, none)
  | .failure failedAt openedAt => pure (self.recordFailure failedAt openedAt, none)
  | .reset => pure (self.reset, none)

/-- The call returns with the recorded answer, and moves between the recorded states. -/
structure Step (s : CircuitBreaker) (e : Entry) (t : CircuitBreaker) : Prop where
  returns : perform s e.op = .ok (t, e.answer)
  before : e.before = s.state
  after : e.after = t.state

instance (s : CircuitBreaker) (e : Entry) (t : CircuitBreaker) : Decidable (Step s e t) :=
  decidable_of_iff
    (perform s e.op = .ok (t, e.answer) ∧ e.before = s.state ∧ e.after = t.state)
    ⟨fun h => ⟨h.1, h.2.1, h.2.2⟩, fun h => ⟨h.returns, h.before, h.after⟩⟩

/-- The call admits a request. -/
def Entry.admits (e : Entry) : Bool := e.answer = some (.ok ())

/-- The call moves the breaker to `Open`. -/
def Entry.opens (e : Entry) : Bool := e.before != .opened && e.after == .opened

/-- The call moves the breaker back to `Closed`. -/
def Entry.closes (e : Entry) : Bool := e.before != .closed && e.after == .closed

/-- The clock after the call. -/
def Op.clock (m : ℤ) : Op → ℤ
  | .allow now => now
  | .failure _ openedAt => openedAt
  | .success | .reset => m

/-- The readings of the call, from a first reading on, do not go back. -/
def Op.Forward (m : ℤ) : Op → Prop
  | .allow now => m ≤ now
  | .failure failedAt openedAt => m ≤ failedAt ∧ failedAt ≤ openedAt
  | .success | .reset => True

instance (m : ℤ) : (op : Op) → Decidable (op.Forward m)
  | .allow now => inferInstanceAs (Decidable (m ≤ now))
  | .failure _ _ => inferInstanceAs (Decidable (_ ∧ _))
  | .success => inferInstanceAs (Decidable True)
  | .reset => inferInstanceAs (Decidable True)

theorem Op.Forward.le {m : ℤ} {op : Op} (h : op.Forward m) : m ≤ op.clock m := by
  cases op with
  | allow now => exact h
  | success => exact le_rfl
  | failure failedAt openedAt => exact h.1.trans h.2
  | reset => exact le_rfl

/-- The readings of consecutive calls do not go back. -/
def InOrder : ℤ → List Entry → Prop
  | _, [] => True
  | m, e :: es => e.op.Forward m ∧ InOrder (e.op.clock m) es

instance decidableInOrder : (m : ℤ) → (es : List Entry) → Decidable (InOrder m es)
  | _, [] => inferInstanceAs (Decidable True)
  | m, e :: es =>
    have := decidableInOrder (e.op.clock m) es
    inferInstanceAs (Decidable (_ ∧ InOrder (e.op.clock m) es))

/-! ### What one call does -/

section Steps

variable {s t : CircuitBreaker} {e : Entry}

theorem Step.allow {now : ℤ} (h : Step s e t) (op : e.op = .allow now) :
    ∃ result, s.allowRequest now = .ok (t, result) ∧ e.answer = some result := by
  have returns := h.returns
  rw [op, perform] at returns
  cases asked : s.allowRequest now with
  | error _ => simp [asked] at returns
  | ok answer =>
    obtain ⟨next, result⟩ := answer
    simp only [asked, ok_bind, pure_eq_ok, Except.ok.injEq, Prod.mk.injEq] at returns
    exact ⟨result, by rw [returns.1], returns.2.symm⟩

/-- An `allow_request` that returned starts from the breaker that the timeout check leaves; it takes
a half-open call there, or changes nothing. -/
theorem Step.allow_cases {now : ℤ} (h : Step s e t) (op : e.op = .allow now) :
    ∃ mid, s.checkTimeout now = .ok mid ∧
      ((mid.state = .closed ∧ t = mid) ∨
        (mid.state = .halfOpen ∧ mid.halfOpenCalls < mid.config.halfOpenMaxCalls ∧
          t = { mid with halfOpenCalls := mid.halfOpenCalls + 1 }) ∨
        (mid.state ≠ .closed ∧ t = mid ∧ e.admits = false)) := by
  obtain ⟨result, asked, answered⟩ := h.allow op
  cases result with
  | ok _ =>
    obtain ⟨mid, checked, ⟨closed, rfl⟩ | ⟨half, room, rfl⟩⟩ := allowRequest_ok asked
    · exact ⟨t, checked, .inl ⟨closed, rfl⟩⟩
    · exact ⟨mid, checked, .inr (.inl ⟨half, room, rfl⟩)⟩
  | error error =>
    obtain ⟨checked, notClosed⟩ := allowRequest_error asked
    exact ⟨t, checked, .inr (.inr ⟨notClosed, rfl, by simp [Entry.admits, answered]⟩)⟩

theorem Step.success (h : Step s e t) (op : e.op = .success) :
    t = s.recordSuccess ∧ e.admits = false := by
  have returns := h.returns
  simp only [op, perform, pure_eq_ok, Except.ok.injEq, Prod.mk.injEq] at returns
  exact ⟨returns.1.symm, by simp [Entry.admits, ← returns.2]⟩

theorem Step.failure {failedAt openedAt : ℤ} (h : Step s e t)
    (op : e.op = .failure failedAt openedAt) :
    t = s.recordFailure failedAt openedAt ∧ e.admits = false := by
  have returns := h.returns
  simp only [op, perform, pure_eq_ok, Except.ok.injEq, Prod.mk.injEq] at returns
  exact ⟨returns.1.symm, by simp [Entry.admits, ← returns.2]⟩

theorem Step.reset (h : Step s e t) (op : e.op = .reset) : t = s.reset := by
  have returns := h.returns
  simp only [op, perform, pure_eq_ok, Except.ok.injEq, Prod.mk.injEq] at returns
  exact returns.1.symm

theorem Step.config (h : Step s e t) : t.config = s.config := by
  cases op : e.op with
  | allow now =>
    obtain ⟨mid, checked, cases⟩ := h.allow_cases op
    have kept := checkTimeout_config checked
    rcases cases with ⟨_, rfl⟩ | ⟨_, _, rfl⟩ | ⟨_, rfl, _⟩ <;> exact kept
  | success => rw [(h.success op).1, recordSuccess_config]
  | failure failedAt openedAt => rw [(h.failure op).1, recordFailure_config]
  | reset => rw [h.reset op, CircuitBreaker.reset]

end Steps

theorem run_config {s t : CircuitBreaker} {es : List Entry} (run : Run Step s es t) :
    t.config = s.config := by
  refine run.invariant (I := fun a => a.config = s.config) ?_ rfl
  intro a e b same step
  exact step.config.trans same

end BusinessOs.Core.RateLimit.BreakerHistory
