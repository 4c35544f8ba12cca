/- Source: rust/src/rate_limit.rs (RateLimiter)
   digest: The limiter's arithmetic is safe exactly where no call divides by a zero interval. -/

import BusinessOs.Core.RateLimit.BucketReadings

set_option autoImplicit false
set_option relaxedAutoImplicit false

namespace BusinessOs.Core.RateLimit.BucketArithmetic

open BusinessOs.Lib.Chrono
open BusinessOs.Core.RateLimit.Bucket BusinessOs.Core.RateLimit.BucketRuns
open BusinessOs.Core.RateLimit.BucketReadings

/-- One call with the clocks it will read. -/
structure Request where
  call : Call
  created : ℤ
  now : ℤ
  deriving DecidableEq, Repr

def Request.InRange (r : Request) : Prop := Representable r.created ∧ Representable r.now

instance (r : Request) : Decidable r.InRange := inferInstanceAs (Decidable (_ ∧ _))

/-- `reset` is the one call that does not refill. -/
def Request.Resets (r : Request) : Prop := ∃ key, r.call = .reset key

/-- The milliseconds that a refill at `now` converts to `i64`. -/
def consumedMs (config : BucketConfig) (now : ℤ) (state : BucketState) : ℕ :=
  elapsedMs now state / config.refillIntervalMs.toNat * config.refillIntervalMs.toNat

/-- The conversion is exact; `as i64` would wrap without a panic. -/
def Converts (s : RateLimiter) (r : Request) : Prop :=
  ¬ r.Resets → consumedMs s.config r.now (s.held r.call.key r.created) < 2 ^ 63

/-- Every stored `last_refill` is an instant that chrono can hold. -/
def Instants (s : RateLimiter) : Prop :=
  ∀ key state, s.buckets.lookup key = some state → Representable state.lastRefill

/-- The calls return one after another, their conversions are exact, and no `last_refill` leaves
chrono's range. -/
def Safe : RateLimiter → List Request → Prop
  | _, [] => True
  | s, r :: rs => Converts s r ∧ ∃ t reply,
      performReading s r.created r.now r.call = .ok (t, reply) ∧ Instants t ∧ Safe t rs

theorem converts {s : RateLimiter} {r : Request} (sound : Sound s) (range : r.InRange) :
    Converts s r := by
  intro _
  have small : elapsedMs r.now (s.held r.call.key r.created) < 2 ^ 63 :=
    elapsed_lt (sound.held_instant r.call.key range.1) range.2
  have fits := Nat.div_mul_le_self (elapsedMs r.now (s.held r.call.key r.created))
    s.config.refillIntervalMs.toNat
  exact lt_of_le_of_lt fits small

theorem reset_sound {s : RateLimiter} (sound : Sound s) (key : String) {now : ℤ}
    (hn : Representable now) : Sound (s.reset key now) := by
  obtain ⟨stored, agrees⟩ := reset_spec s key now
  exact sound.update agrees stored (full_whole s.config now) hn

/-- With an interval to divide by, or nothing to refill, a call returns a sound limiter. -/
theorem performReading_returns {s : RateLimiter} {r : Request} (sound : Sound s)
    (range : r.InRange) (h : 0 < s.config.refillIntervalMs.toNat ∨ r.Resets) :
    ∃ t reply, performReading s r.created r.now r.call = .ok (t, reply) ∧ Sound t ∧
      t.config = s.config := by
  by_cases resets : r.Resets
  · obtain ⟨key, call⟩ := resets
    refine ⟨s.reset key r.now, .done, ?_, reset_sound sound key range.2, rfl⟩
    rw [call]
    rfl
  · have positive := h.resolve_right resets
    obtain ⟨t, returns, _⟩ := performReading_current positive sound range.1 range.2 r.call
      fun key call => resets ⟨key, call⟩
    have step : ReadingStep s ⟨r.call, r.created, r.now, _⟩ t := returns
    exact ⟨t, _, returns, step.sound positive sound range,
      (step.agreesOff positive sound range).config.symm⟩

/-- Without an interval to divide by, every refill panics. -/
theorem refill_zero {config : BucketConfig} (zero : config.refillIntervalMs.toNat = 0) (now : ℤ)
    (state : BucketState) : state.refill config now = .error .divideByZero := by
  unfold BucketState.refill
  rw [zero]
  rfl

theorem refilled_zero {self : RateLimiter} (zero : self.config.refillIntervalMs.toNat = 0)
    (key : String) (now : ℤ) : self.refilled key now = .error .divideByZero := by
  have same := (ensureBucket_agreesOff self key now).config
  unfold RateLimiter.refilled RateLimiter.refill
  rw [ensureBucket_lookup]
  simp only [← same, refill_zero zero, error_bind]

theorem performReading_zero {s : RateLimiter} {r : Request}
    (zero : s.config.refillIntervalMs.toNat = 0) (refills : ¬ r.Resets) :
    performReading s r.created r.now r.call = .error .divideByZero := by
  have same := (opened_agreesOff s r.created r.call).config
  rw [same] at zero
  have panics := refilled_zero zero
  unfold performReading
  cases call : r.call with
  | reset key => exact absurd ⟨key, call⟩ refills
  | check key =>
    rw [call] at panics
    simp only [perform, RateLimiter.check, RateLimiter.checkN, panics, error_bind]
  | checkN key n =>
    rw [call] at panics
    simp only [perform, RateLimiter.checkN, panics, error_bind]
  | available key =>
    rw [call] at panics
    simp only [perform, RateLimiter.available, panics, error_bind]

theorem safe_of_positive {s : RateLimiter} {rs : List Request} (sound : Sound s)
    (range : ∀ r ∈ rs, r.InRange)
    (h : 0 < s.config.refillIntervalMs.toNat ∨ ∀ r ∈ rs, r.Resets) : Safe s rs := by
  induction rs generalizing s with
  | nil => trivial
  | cons r rs ih =>
    have first := range r List.mem_cons_self
    obtain ⟨t, reply, returns, next, same⟩ := performReading_returns sound first
      (h.imp_right fun all => all r List.mem_cons_self)
    refine ⟨converts sound first, t, reply, returns, next.instant, ih next ?_ ?_⟩
    · exact fun x hx => range x (List.mem_cons_of_mem r hx)
    · rw [same]
      exact h.imp_right fun all x hx => all x (List.mem_cons_of_mem r hx)

theorem resets_of_safe {s : RateLimiter} {rs : List Request} (safe : Safe s rs)
    (zero : s.config.refillIntervalMs.toNat = 0) : ∀ r ∈ rs, r.Resets := by
  induction rs generalizing s with
  | nil => simp
  | cons r rs ih =>
    obtain ⟨_, t, reply, returns, _, rest⟩ := safe
    have first : r.Resets := by
      by_contra refills
      rw [performReading_zero zero refills] at returns
      exact absurd returns (by simp)
    have same : t.config = s.config := by
      obtain ⟨key, call⟩ := first
      rw [call] at returns
      simp only [performReading, opened, perform, pure_eq_ok, Except.ok.injEq,
        Prod.mk.injEq] at returns
      rw [← returns.1, RateLimiter.reset]
    intro x hx
    rcases List.mem_cons.mp hx with rfl | later
    · exact first
    · exact ih rest (same.symm ▸ zero) x later

/-- Whatever the configuration and the clocks, the arithmetic of a run is safe exactly when the
refill interval is not zero, or nothing but resets is called. -/
theorem arithmetic_safe_iff (config : BucketConfig) (rs : List Request)
    (range : ∀ r ∈ rs, r.InRange) :
    Safe (RateLimiter.new config) rs ↔
      0 < config.refillIntervalMs ∨ ∀ r ∈ rs, r.Resets := by
  constructor
  · intro safe
    rcases Nat.eq_zero_or_pos config.refillIntervalMs.toNat with zero | positive
    · exact .inr (resets_of_safe safe zero)
    · exact .inl positive
  · intro h
    exact safe_of_positive (new_sound config) range h

/-- The first call on a limiter without an interval divides by zero. -/
theorem arithmetic_unsafe_zero :
    performReading (RateLimiter.new ⟨100, 10, 0⟩) 0 0 (.check "k") = .error .divideByZero ∧
      ¬ Safe (RateLimiter.new ⟨100, 10, 0⟩) [⟨.check "k", 0, 0⟩] := by
  have panics : performReading (RateLimiter.new ⟨100, 10, 0⟩) 0 0 (.check "k") =
      .error .divideByZero := by
    decide
  refine ⟨panics, ?_⟩
  rintro ⟨_, t, reply, returns, _⟩
  rw [panics] at returns
  exact absurd returns (by simp)

/-- The longest interval and the full range of the clock, with a step back at the end. -/
theorem arithmetic_safe_extremes :
    Safe (RateLimiter.new ⟨4294967295, 4294967295, 18446744073709551615⟩)
      [⟨.check "k", -8334601228800000000000, 8210266876799999999999⟩,
        ⟨.available "k", 0, -8334601228800000000000⟩] :=
  (arithmetic_safe_iff _ _ (by decide)).mpr (.inl (by decide))

end BusinessOs.Core.RateLimit.BucketArithmetic
