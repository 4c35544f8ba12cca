/- Source: crates/abos-governance-core/src/lib.rs (evaluate_circuit_breaker)
   digest: The integration breaker as a pure decision, and runs that feed each decision back. -/

import BusinessOs.Lib.MachineInt

set_option autoImplicit false
set_option relaxedAutoImplicit false

namespace BusinessOs.Governance.Breaker

open BusinessOs.Lib BusinessOs.Lib.Chrono

inductive CircuitState
  | closed | opened
  deriving DecidableEq, Repr

structure CircuitBreakerInput where
  integration : String
  limitPerMinute : UInt32
  callsThisWindow : UInt32
  windowStartedAt : ℤ
  state : CircuitState
  openedUntil : Option ℤ
  now : ℤ
  deriving DecidableEq, Repr

structure CircuitBreakerDecision where
  integration : String
  state : CircuitState
  allowed : Bool
  callsThisWindow : UInt32
  limitPerMinute : UInt32
  windowStartedAt : ℤ
  openedUntil : Option ℤ
  reason : String
  deriving DecidableEq, Repr

section Evaluate

variable (mode : MachineInt.Overflow)

def evaluateCircuitBreaker (input : CircuitBreakerInput) :
    Except Panic CircuitBreakerDecision :=
  if input.state = .opened ∧ ∃ openedUntil ∈ input.openedUntil, openedUntil > input.now then
    pure
      { integration := input.integration
        state := .opened
        allowed := false
        callsThisWindow := input.callsThisWindow
        limitPerMinute := input.limitPerMinute
        windowStartedAt := input.windowStartedAt
        openedUntil := input.openedUntil
        reason := "circuit breaker is open" }
  else do
    let windowEnd ← addDelta input.windowStartedAt (minutes 1)
    let windowExpired := decide (windowEnd ≤ input.now)
    let callsThisWindow := if windowExpired then 0 else input.callsThisWindow
    let windowStartedAt := if windowExpired then input.now else input.windowStartedAt
    let callsThisWindow ← MachineInt.addU32 mode callsThisWindow 1
    if callsThisWindow > input.limitPerMinute then
      let openedUntil ← addDelta input.now (minutes 5)
      pure
        { integration := input.integration
          state := .opened
          allowed := false
          callsThisWindow
          limitPerMinute := input.limitPerMinute
          windowStartedAt
          openedUntil := some openedUntil
          reason := "rate limit exceeded" }
    else
      pure
        { integration := input.integration
          state := .closed
          allowed := true
          callsThisWindow
          limitPerMinute := input.limitPerMinute
          windowStartedAt
          openedUntil := none
          reason := "call allowed" }

/-- A call of the breaker: its time and its limit. -/
structure Call where
  now : ℤ
  limitPerMinute : UInt32
  deriving DecidableEq, Repr

/-- A closed breaker whose window starts with the call. -/
def freshInput (integration : String) (call : Call) : CircuitBreakerInput where
  integration
  limitPerMinute := call.limitPerMinute
  callsThisWindow := 0
  windowStartedAt := call.now
  state := .closed
  openedUntil := none
  now := call.now

/-- A decision as the input of the next call. -/
def CircuitBreakerDecision.feed (decision : CircuitBreakerDecision) (call : Call) :
    CircuitBreakerInput where
  integration := decision.integration
  limitPerMinute := call.limitPerMinute
  callsThisWindow := decision.callsThisWindow
  windowStartedAt := decision.windowStartedAt
  state := decision.state
  openedUntil := decision.openedUntil
  now := call.now

/-- The input of the next call after the last decision, if there was one. -/
def nextInput (integration : String) (last : Option CircuitBreakerDecision) (call : Call) :
    CircuitBreakerInput :=
  match last with
  | none => freshInput integration call
  | some decision => decision.feed call

/-- The last decision of a sequence of calls. -/
def evaluateCalls (integration : String) (calls : List Call) :
    Except Panic (Option CircuitBreakerDecision) :=
  calls.foldlM
    (fun last call => do
      let decision ← evaluateCircuitBreaker mode (nextInput integration last call)
      pure (some decision))
    none

end Evaluate

/-- A call that has decided something: still open, over the limit, or allowed. -/
theorem evaluateCircuitBreaker_returned (mode : MachineInt.Overflow) {input : CircuitBreakerInput}
    {decision : CircuitBreakerDecision} (h : evaluateCircuitBreaker mode input = .ok decision)
    (small : ¬ input.windowStartedAt + minutes 1 ≤ input.now →
      ¬ (input.state = .opened ∧ ∃ openedUntil ∈ input.openedUntil, openedUntil > input.now) →
      input.callsThisWindow.toNat < 2 ^ 32 - 1) :
    let refused := input.state = .opened ∧
      ∃ openedUntil ∈ input.openedUntil, openedUntil > input.now
    let expired := input.windowStartedAt + minutes 1 ≤ input.now
    let counted := (if expired then 0 else input.callsThisWindow.toNat) + 1
    decision.integration = input.integration ∧
      ((refused ∧ decision.allowed = false ∧ decision.reason = "circuit breaker is open" ∧
          decision.state = .opened ∧ decision.callsThisWindow = input.callsThisWindow ∧
          decision.windowStartedAt = input.windowStartedAt ∧
          decision.openedUntil = input.openedUntil) ∨
        (¬ refused ∧ decision.callsThisWindow.toNat = counted ∧
          decision.windowStartedAt = (if expired then input.now else input.windowStartedAt) ∧
          ((input.limitPerMinute.toNat < counted ∧ decision.allowed = false ∧
              decision.reason = "rate limit exceeded" ∧ decision.state = .opened ∧
              decision.openedUntil = some (input.now + minutes 5)) ∨
            (counted ≤ input.limitPerMinute.toNat ∧ decision.allowed = true ∧
              decision.reason = "call allowed" ∧ decision.state = .closed ∧
              decision.openedUntil = none)))) := by
  intro refused expired counted
  unfold evaluateCircuitBreaker at h
  by_cases still : refused
  · rw [if_pos still] at h
    obtain rfl := Except.ok.inj h
    exact ⟨rfl, .inl ⟨still, rfl, rfl, rfl, rfl, rfl, rfl⟩⟩
  · rw [if_neg still] at h
    cases window : addDelta input.windowStartedAt (minutes 1) with
    | error _ => simp [window] at h
    | ok windowEnd =>
      obtain rfl := addDelta_ok window
      rw [window, ok_bind] at h
      have fits : (if decide expired then (0 : UInt32) else input.callsThisWindow).toNat +
          (1 : UInt32).toNat < 2 ^ 32 := by
        have one : (1 : UInt32).toNat = 1 := rfl
        by_cases late : expired
        · simp [late]
        · have := small late still
          simp only [late, decide_false, Bool.false_eq_true, if_false, one]
          omega
      obtain ⟨added, value⟩ := MachineInt.addU32_small mode fits
      have count : ((if decide expired then (0 : UInt32) else input.callsThisWindow) + 1).toNat =
          counted := by
        rw [value]
        by_cases late : expired <;> simp [late, counted]
      simp only [expired] at added count
      simp only [added, ok_bind] at h
      by_cases exceeds : (if decide expired then (0 : UInt32) else input.callsThisWindow) + 1 >
          input.limitPerMinute
      · have above : input.limitPerMinute.toNat < counted := by
          rw [← count]
          exact UInt32.lt_iff_toNat_lt.mp exceeds
        simp only [expired] at exceeds
        rw [if_pos exceeds] at h
        cases opening : addDelta input.now (minutes 5) with
        | error _ => simp [opening] at h
        | ok openedUntil =>
          obtain rfl := addDelta_ok opening
          rw [opening, ok_bind] at h
          obtain rfl := Except.ok.inj h
          refine ⟨rfl, .inr ⟨still, count, ?_, .inl ⟨above, rfl, rfl, rfl, rfl⟩⟩⟩
          by_cases late : expired <;> simp [late, expired]
      · have within : counted ≤ input.limitPerMinute.toNat := by
          rw [← count]
          exact Nat.le_of_not_lt fun above => exceeds (UInt32.lt_iff_toNat_lt.mpr above)
        simp only [expired] at exceeds
        rw [if_neg exceeds] at h
        obtain rfl := Except.ok.inj h
        refine ⟨rfl, .inr ⟨still, count, ?_, .inr ⟨within, rfl, rfl, rfl, rfl⟩⟩⟩
        by_cases late : expired <;> simp [late, expired]

/-- Within chrono's range and below the counter's last value, every call returns. -/
theorem evaluateCircuitBreaker_returns (mode : MachineInt.Overflow) (input : CircuitBreakerInput)
    (window : Representable (input.windowStartedAt + minutes 1))
    (opening : Representable (input.now + minutes 5))
    (small : input.callsThisWindow.toNat < 2 ^ 32 - 1) :
    ∃ decision, evaluateCircuitBreaker mode input = .ok decision := by
  unfold evaluateCircuitBreaker
  split_ifs
  · exact ⟨_, rfl⟩
  · rw [addDelta_representable window, ok_bind]
    have fits : (if decide (input.windowStartedAt + minutes 1 ≤ input.now) then (0 : UInt32)
        else input.callsThisWindow).toNat + (1 : UInt32).toNat < 2 ^ 32 := by
      have one : (1 : UInt32).toNat = 1 := rfl
      split_ifs
      · simp
      · omega
    simp only [(MachineInt.addU32_small mode fits).1, ok_bind, addDelta_representable opening]
    split_ifs <;> exact ⟨_, rfl⟩

/-- What a call does, by what it finds: still open, over the limit, or allowed. -/
theorem evaluateCircuitBreaker_cases (mode : MachineInt.Overflow) (input : CircuitBreakerInput)
    (window : Representable (input.windowStartedAt + minutes 1))
    (opening : Representable (input.now + minutes 5))
    (small : input.callsThisWindow.toNat < 2 ^ 32 - 1) :
    let refused := input.state = .opened ∧
      ∃ openedUntil ∈ input.openedUntil, openedUntil > input.now
    let expired := input.windowStartedAt + minutes 1 ≤ input.now
    let counted := (if expired then 0 else input.callsThisWindow.toNat) + 1
    ∃ decision, evaluateCircuitBreaker mode input = .ok decision ∧
      decision.integration = input.integration ∧
      ((refused ∧ decision.allowed = false ∧ decision.state = .opened ∧
          decision.callsThisWindow = input.callsThisWindow ∧
          decision.windowStartedAt = input.windowStartedAt ∧
          decision.openedUntil = input.openedUntil) ∨
        (¬ refused ∧ decision.callsThisWindow.toNat = counted ∧
          decision.windowStartedAt = (if expired then input.now else input.windowStartedAt) ∧
          ((input.limitPerMinute.toNat < counted ∧ decision.allowed = false ∧
              decision.state = .opened ∧ decision.openedUntil = some (input.now + minutes 5)) ∨
            (counted ≤ input.limitPerMinute.toNat ∧ decision.allowed = true ∧
              decision.state = .closed ∧ decision.openedUntil = none)))) := by
  intro refused expired counted
  obtain ⟨decision, returns⟩ := evaluateCircuitBreaker_returns mode input window opening small
  obtain ⟨same, decided⟩ := evaluateCircuitBreaker_returned mode returns fun _ _ => small
  refine ⟨decision, returns, same, ?_⟩
  rcases decided with ⟨still, denied, _, rest⟩ | ⟨passed, count, window, cases⟩
  · exact .inl ⟨still, denied, rest⟩
  · refine .inr ⟨passed, count, window, ?_⟩
    rcases cases with ⟨above, denied, _, rest⟩ | ⟨within, granted, _, rest⟩
    · exact .inl ⟨above, denied, rest⟩
    · exact .inr ⟨within, granted, rest⟩

end BusinessOs.Governance.Breaker
