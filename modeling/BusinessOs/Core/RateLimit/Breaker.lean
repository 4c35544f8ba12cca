/- Source: rust/src/rate_limit.rs (CircuitBreaker)
   digest: The three-state circuit breaker, and what each of its calls can do to it. -/

import BusinessOs.Lib.Chrono
import Mathlib.Data.Int.Order.Basic

set_option autoImplicit false
set_option relaxedAutoImplicit false

namespace BusinessOs.Core.RateLimit.Breaker

open BusinessOs.Lib.Chrono

/-- The three states; `opened` is the source's `Open`. -/
inductive CircuitState
  | closed | opened | halfOpen
  deriving DecidableEq, Repr

structure CircuitBreakerConfig where
  failureThreshold : UInt32
  successThreshold : UInt32
  timeoutSecs : Int64
  halfOpenMaxCalls : UInt32
  deriving DecidableEq

inductive CircuitBreakerError
  | opened (name : String) (openedAt : Option ℤ)
  | halfOpenExhausted (name : String)
  deriving DecidableEq, Repr

/-- A single breaker for a named downstream dependency. -/
structure CircuitBreaker where
  name : String
  config : CircuitBreakerConfig
  state : CircuitState
  failureCount : UInt32
  successCount : UInt32
  lastFailure : Option ℤ
  openedAt : Option ℤ
  halfOpenCalls : UInt32
  deriving DecidableEq

def CircuitBreaker.new (name : String) (config : CircuitBreakerConfig) : CircuitBreaker :=
  ⟨name, config, .closed, 0, 0, none, none, 0⟩

def CircuitBreaker.checkTimeout (self : CircuitBreaker) (now : ℤ) :
    Except Panic CircuitBreaker :=
  match self.state, self.openedAt with
  | .opened, some openedAt => do
    let timeout ← seconds self.config.timeoutSecs.toInt
    pure (if timeout ≤ now - openedAt then
      { self with state := .halfOpen, halfOpenCalls := 0, successCount := 0 } else self)
  | _, _ => pure self

def CircuitBreaker.allowRequest (self : CircuitBreaker) (now : ℤ) :
    Except Panic (CircuitBreaker × Except CircuitBreakerError Unit) := do
  let self ← self.checkTimeout now
  match self.state with
  | .closed => pure (self, .ok ())
  | .opened => pure (self, .error (.opened self.name self.openedAt))
  | .halfOpen =>
    if self.halfOpenCalls < self.config.halfOpenMaxCalls then
      pure ({ self with halfOpenCalls := self.halfOpenCalls + 1 }, .ok ())
    else pure (self, .error (.halfOpenExhausted self.name))

def CircuitBreaker.recordSuccess (self : CircuitBreaker) : CircuitBreaker :=
  match self.state with
  | .closed => { self with failureCount := 0 }
  | .halfOpen =>
    let successCount := self.successCount + 1
    if self.config.successThreshold ≤ successCount then
      { self with state := .closed, failureCount := 0, successCount := 0, halfOpenCalls := 0 }
    else { self with successCount }
  | .opened => self

/-- The clock is read once for `last_failure` and again for `opened_at`. -/
def CircuitBreaker.recordFailure (self : CircuitBreaker) (failedAt openedAt : ℤ) :
    CircuitBreaker :=
  let self := { self with lastFailure := some failedAt }
  match self.state with
  | .closed =>
    let failureCount := self.failureCount + 1
    if self.config.failureThreshold ≤ failureCount then
      { self with failureCount, state := .opened, openedAt := some openedAt }
    else { self with failureCount }
  | .halfOpen =>
    { self with state := .opened, openedAt := some openedAt, successCount := 0,
                halfOpenCalls := 0 }
  | .opened => self

def CircuitBreaker.isOpen (self : CircuitBreaker) : Bool := self.state == .opened

def CircuitBreaker.reset (self : CircuitBreaker) : CircuitBreaker :=
  { self with state := .closed, failureCount := 0, successCount := 0, lastFailure := none,
              openedAt := none, halfOpenCalls := 0 }

/-- The half-open state with fresh counters that the timeout leads to. -/
def CircuitBreaker.probing (self : CircuitBreaker) : CircuitBreaker :=
  { self with state := .halfOpen, halfOpenCalls := 0, successCount := 0 }

variable {self next : CircuitBreaker} {now : ℤ} {result : Except CircuitBreakerError Unit}

/-- The timeout check leaves the breaker alone, or starts a half-open period from `opened`. -/
theorem checkTimeout_cases (h : self.checkTimeout now = .ok next) :
    (next = self) ∨ (self.state = .opened ∧ next = self.probing) := by
  unfold CircuitBreaker.checkTimeout at h
  split at h
  · rename_i opened found
    cases limit : seconds self.config.timeoutSecs.toInt with
    | error _ => simp [limit] at h
    | ok timeout =>
      simp only [limit, ok_bind, pure_eq_ok, Except.ok.injEq] at h
      split_ifs at h
      · exact .inr ⟨opened, h.symm⟩
      · exact .inl h.symm
  · simp only [pure_eq_ok, Except.ok.injEq] at h
    exact .inl h.symm

theorem checkTimeout_config (h : self.checkTimeout now = .ok next) :
    next.config = self.config := by
  rcases checkTimeout_cases h with rfl | ⟨_, rfl⟩ <;> rfl

@[simp] theorem recordSuccess_config : self.recordSuccess.config = self.config := by
  unfold CircuitBreaker.recordSuccess
  cases self.state
  · rfl
  · rfl
  · dsimp only
    split_ifs <;> rfl

@[simp] theorem recordFailure_config {failedAt openedAt : ℤ} :
    (self.recordFailure failedAt openedAt).config = self.config := by
  unfold CircuitBreaker.recordFailure
  cases self.state <;> dsimp only
  split_ifs <;> rfl

/-- Away from `opened` the clock does not matter. -/
theorem checkTimeout_of_ne_opened (h : self.state ≠ .opened) :
    self.checkTimeout now = .ok self := by
  unfold CircuitBreaker.checkTimeout
  split
  · rename_i opened _
    exact absurd opened h
  · rfl

/-- Once the timeout has passed, the check starts a half-open period. -/
theorem checkTimeout_due {openedAt : ℤ} (opened : self.state = .opened)
    (found : self.openedAt = some openedAt)
    (range : SecondsInRange self.config.timeoutSecs.toInt)
    (due : openedAt + self.config.timeoutSecs.toInt * 1000000000 ≤ now) :
    self.checkTimeout now = .ok self.probing := by
  have passed : self.config.timeoutSecs.toInt * 1000000000 ≤ now - openedAt := by omega
  unfold CircuitBreaker.checkTimeout
  simp only [opened, found, seconds_inRange range, ok_bind, passed, if_true, pure_eq_ok,
    CircuitBreaker.probing]

/-- What a timeout check of an open breaker that returns has decided. -/
theorem checkTimeout_opened {openedAt : ℤ} (opened : self.state = .opened)
    (found : self.openedAt = some openedAt) (h : self.checkTimeout now = .ok next) :
    (next = self ∧ now < openedAt + self.config.timeoutSecs.toInt * 1000000000) ∨
      (next = self.probing ∧ openedAt + self.config.timeoutSecs.toInt * 1000000000 ≤ now) := by
  unfold CircuitBreaker.checkTimeout seconds at h
  simp only [opened, found] at h
  by_cases range : SecondsInRange self.config.timeoutSecs.toInt
  · simp only [range, if_true, ok_bind, pure_eq_ok, Except.ok.injEq] at h
    by_cases passed : self.config.timeoutSecs.toInt * 1000000000 ≤ now - openedAt
    · rw [if_pos passed] at h
      exact .inr ⟨by rw [← h, CircuitBreaker.probing, found], by omega⟩
    · rw [if_neg passed] at h
      exact .inl ⟨h.symm, by omega⟩
  · simp [range] at h

/-- An admission: the breaker after the timeout check is closed, or half-open with room. -/
theorem allowRequest_ok (h : self.allowRequest now = .ok (next, .ok ())) :
    ∃ mid, self.checkTimeout now = .ok mid ∧
      ((mid.state = .closed ∧ next = mid) ∨
        (mid.state = .halfOpen ∧ mid.halfOpenCalls < mid.config.halfOpenMaxCalls ∧
          next = { mid with halfOpenCalls := mid.halfOpenCalls + 1 })) := by
  unfold CircuitBreaker.allowRequest at h
  cases checked : self.checkTimeout now with
  | error _ => simp [checked] at h
  | ok mid =>
    refine ⟨mid, rfl, ?_⟩
    rw [checked, ok_bind] at h
    cases state : mid.state with
    | closed => exact .inl ⟨rfl, by simpa [state] using h.symm⟩
    | opened => simp [state] at h
    | halfOpen =>
      simp only [state, pure_eq_ok] at h
      split_ifs at h with room
      · exact .inr ⟨rfl, room, by simpa using h.symm⟩
      · simp at h

/-- A refusal leaves what the timeout check left. -/
theorem allowRequest_error {e : CircuitBreakerError}
    (h : self.allowRequest now = .ok (next, .error e)) :
    self.checkTimeout now = .ok next ∧ next.state ≠ .closed := by
  unfold CircuitBreaker.allowRequest at h
  cases checked : self.checkTimeout now with
  | error _ => simp [checked] at h
  | ok mid =>
    rw [checked, ok_bind] at h
    cases state : mid.state with
    | closed => simp [state] at h
    | opened =>
      obtain ⟨rfl, _⟩ : mid = next ∧ _ := by simpa [state] using h
      exact ⟨rfl, by simp [state]⟩
    | halfOpen =>
      simp only [state, pure_eq_ok] at h
      split_ifs at h with room
      · simp at h
      · obtain ⟨rfl, _⟩ : mid = next ∧ _ := by simpa using h
        exact ⟨rfl, by simp [state]⟩

end BusinessOs.Core.RateLimit.Breaker
