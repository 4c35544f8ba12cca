/- Source: rust/src/rate_limit.rs (CircuitBreaker)
   digest: Which reports close a half-open breaker. -/

import BusinessOs.Core.RateLimit.BreakerCalls

set_option autoImplicit false
set_option relaxedAutoImplicit false

namespace BusinessOs.Core.RateLimit.BreakerVerdicts

open BusinessOs.Lib.Chrono BusinessOs.Lib.Execution
open BusinessOs.Core.RateLimit.Breaker BusinessOs.Core.RateLimit.BreakerCalls

/-- Only a success closes a half-open breaker, and it completes the threshold. -/
theorem step_closes {w w' : World} {e : Event} (sound : Sound w) (h : w.step e = some w')
    (half : w.breaker.state = .halfOpen) (closes : w'.breaker.state = .closed) :
    ∃ call filed, w.file call true = some filed ∧ w'.calls = filed.calls ∧
      w.breaker.config.successThreshold.toNat ≤ w.breaker.successCount.toNat + 1 := by
  cases e with
  | allow now =>
    obtain ⟨mid, checked, cases⟩ := step_allow h
    rw [checkTimeout_of_ne_opened (by simp [half])] at checked
    obtain rfl := Except.ok.inj checked
    rcases cases with rfl | ⟨closed, _⟩ | ⟨_, _, rfl⟩
    · simp [World.advance, half] at closes
    · simp [half] at closed
    · simp [half] at closes
  | success call =>
    obtain ⟨filed, found, rfl⟩ := step_success h
    refine ⟨call, filed, found, rfl, ?_⟩
    have below := (sound.probing half).below
    have bound := UInt32.toNat_lt w.breaker.config.successThreshold
    by_cases enough : w.breaker.config.successThreshold ≤ w.breaker.successCount + 1
    · have le : w.breaker.config.successThreshold.toNat ≤
          (w.breaker.successCount + 1).toNat := enough
      rw [UInt32.toNat_add, UInt32.toNat_one] at le
      omega
    · simp [World.advance, CircuitBreaker.recordSuccess, half, enough] at closes
  | failure call failedAt openedAt =>
    obtain ⟨filed, found, rfl⟩ := step_failure h
    simp [World.advance, CircuitBreaker.recordFailure, half] at closes

/-- The successes reported in a period are those of its own calls and those of earlier ones. -/
theorem succeeded_split {p : ℕ} {calls : List Call}
    (own : ∀ c ∈ calls, c.admitted = some p → c.report = none ∨ c.report = some ⟨true, some p⟩) :
    calls.countP (succeededIn p) = calls.countP (ownSuccess p) + calls.countP (lateSuccess p) := by
  induction calls with
  | nil => rfl
  | cons c cs ih =>
    have rest := ih fun d member => own d (List.mem_cons_of_mem c member)
    have head := own c List.mem_cons_self
    have one : (if succeededIn p c then 1 else 0) =
        (if ownSuccess p c then 1 else 0) + (if lateSuccess p c then 1 else 0) := by
      by_cases mine : c.admitted = some p
      · rcases head mine with silent | reported
        · simp [succeededIn, ownSuccess, lateSuccess, mine, silent]
        · simp [succeededIn, ownSuccess, lateSuccess, mine, reported]
      · simp [succeededIn, ownSuccess, lateSuccess, mine]
    simp only [List.countP_cons, rest, one]
    omega

/-- Closing a half-open breaker takes at least `success_threshold` successes reported in that
period, by calls the period admitted or by calls admitted before it. -/
theorem closing_successes (name : String) (config : CircuitBreakerConfig) (clock : ℤ)
    (es : List Event) (e : Event) (w w' : World)
    (run : Run (ofPartial World.step) (World.start name config clock) es w)
    (step : w.step e = some w') (half : w.breaker.state = .halfOpen)
    (closes : w'.breaker.state = .closed) :
    config.successThreshold.toNat ≤
      w'.calls.countP (ownSuccess w.period) + w'.calls.countP (lateSuccess w.period) := by
  have sound := run_sound run (start_sound name config clock)
  have same := run_config run
  obtain ⟨call, filed, found, calls, enough⟩ := step_closes sound step half closes
  obtain ⟨_, succeeded, reports⟩ := filed_probing found half (sound.probing half)
  rw [calls, ← succeeded_split reports, succeeded]
  rw [same] at enough
  exact enough

/-- Two calls are admitted while the circuit is closed and one of them fails, which opens it; a
minute later a probe is admitted, and the other early call has still not reported. -/
def overlapping : World :=
  ⟨⟨"email-service", ⟨1, 1, 60, 1⟩, .halfOpen, 1, 0, some 0, some 0, 1⟩, 60000000000, 1,
    [⟨none, some ⟨false, none⟩⟩, ⟨none, none⟩, ⟨some 1, none⟩]⟩

/-- The early call reports success, and the circuit closes. -/
def overlapped : World :=
  ⟨⟨"email-service", ⟨1, 1, 60, 1⟩, .closed, 0, 0, some 0, some 0, 0⟩, 60000000000, 1,
    [⟨none, some ⟨false, none⟩⟩, ⟨none, some ⟨true, some 1⟩⟩, ⟨some 1, none⟩]⟩

theorem overlapping_run :
    Run (ofPartial World.step) (World.start "email-service" ⟨1, 1, 60, 1⟩ 0)
      [.allow 0, .allow 0, .failure 0 0 0, .allow 60000000000] overlapping :=
  .of_foldlM (by decide)

theorem overlapped_step : overlapping.step (.success 1) = some overlapped := by decide

theorem closing_successes_late_report :
    1 ≤ overlapped.calls.countP (ownSuccess 1) + overlapped.calls.countP (lateSuccess 1) :=
  closing_successes _ _ _ _ _ _ _ overlapping_run overlapped_step rfl rfl

/-- The circuit closes although no call of the half-open period has reported. -/
theorem own_successes_too_few :
    ¬ ∀ (name : String) (config : CircuitBreakerConfig) (clock : ℤ) (es : List Event)
        (e : Event) (w w' : World),
      Run (ofPartial World.step) (World.start name config clock) es w →
      w.step e = some w' → w.breaker.state = .halfOpen → w'.breaker.state = .closed →
      config.successThreshold.toNat ≤ w'.calls.countP (ownSuccess w.period) := by
  intro claim
  have short := claim _ _ _ _ _ _ _ overlapping_run overlapped_step rfl rfl
  revert short
  decide

end BusinessOs.Core.RateLimit.BreakerVerdicts
