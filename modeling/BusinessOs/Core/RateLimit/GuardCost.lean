/- Source: rust/src/rate_limit.rs (RequestGuard)
   digest: What a rejected request costs: nothing at the rate limit, one token at the breaker. -/

import BusinessOs.Core.RateLimit.BucketReadings
import BusinessOs.Core.RateLimit.Guard

set_option autoImplicit false
set_option relaxedAutoImplicit false

namespace BusinessOs.Core.RateLimit.GuardCost

open BusinessOs.Lib.Chrono
open BusinessOs.Core.RateLimit.Bucket BusinessOs.Core.RateLimit.Breaker
open BusinessOs.Core.RateLimit.BucketRuns BusinessOs.Core.RateLimit.BucketReadings
open BusinessOs.Core.RateLimit.Guard

/-- `check` with all its clocks: `ensure_bucket` reads `created`, `_refill` reads `now`, and the
breaker reads `later`. -/
def checkReading (self : RequestGuard) (key : String) (circuitName : Option String)
    (created now later : ℤ) : Except Panic (RequestGuard × Except GuardError Unit) :=
  { self with rateLimiter := opened self.rateLimiter created (.check key) }.check key circuitName
    now later

/-- The bucket of `key` at the end of the two steps that every call begins with. -/
def refillAlone (self : RateLimiter) (key : String) (created now : ℤ) :
    Except Panic (Option BucketState) := do
  let self ← (opened self created (.check key)).refill key now
  pure (self.buckets.lookup key)

/-- Every breaker is what it was, or has begun a half-open period of which no call is used. -/
def NoSlotUsed (before after : RequestGuard) : Prop :=
  ∀ name breaker, after.circuitBreakers.lookup name = some breaker →
    ∃ old, before.circuitBreakers.lookup name = some old ∧
      (breaker = old ∨ (old.state = .opened ∧ breaker = old.probing))

theorem opened_check (self : RateLimiter) (key : String) (created now : ℤ) :
    (opened self created (.check key)).ensureBucket key now =
      opened self created (.check key) := by
  have there := ensureBucket_lookup self key created
  have known : key ∈ (self.ensureBucket key created).buckets := by
    rw [← AList.lookup_isSome, there]
    rfl
  change (self.ensureBucket key created).ensureBucket key now = self.ensureBucket key created
  rw [RateLimiter.ensureBucket, if_pos known]

/-- Whatever the answer, the bucket that `check` decides on is the refilled one. -/
theorem check_alone {self next : RateLimiter} {key : String} {created now : ℤ}
    {result : Except RateLimitError Unit}
    (h : (opened self created (.check key)).check key now = .ok (next, result)) :
    ∃ state, refillAlone self key created now = .ok (some state) ∧
      next.buckets.lookup key = some (state.spend (taken 1 result)) := by
  unfold RateLimiter.check RateLimiter.checkN RateLimiter.refilled at h
  rw [opened_check] at h
  unfold refillAlone
  cases refilled : (opened self created (.check key)).refill key now with
  | error _ => simp [refilled] at h
  | ok limiter =>
    simp only [refilled, ok_bind, pure_eq_ok] at h ⊢
    cases found : limiter.buckets.lookup key with
    | none => simp [found] at h
    | some state =>
      refine ⟨state, rfl, ?_⟩
      simp only [found, ok_bind] at h
      split_ifs at h with enough
      · obtain ⟨rfl, rfl⟩ := Prod.mk.inj (Except.ok.inj h)
        exact AList.lookup_insert _
      · obtain ⟨rfl, rfl⟩ := Prod.mk.inj (Except.ok.inj h)
        rw [taken, spend_zero]
        exact found

theorem NoSlotUsed.refl (self : RequestGuard) : NoSlotUsed self self :=
  fun _ breaker found => ⟨breaker, found, .inl rfl⟩

theorem NoSlotUsed.insert {self : RequestGuard} {limiter : RateLimiter} {name : String}
    {breaker mid : CircuitBreaker} (known : self.circuitBreakers.lookup name = some breaker)
    {later : ℤ} (checked : breaker.checkTimeout later = .ok mid) :
    NoSlotUsed self ⟨limiter, self.circuitBreakers.insert name mid⟩ := by
  intro other found stored
  by_cases same : other = name
  · subst same
    rw [AList.lookup_insert, Option.some.injEq] at stored
    subst stored
    exact ⟨breaker, known, checkTimeout_cases checked⟩
  · rw [AList.lookup_insert_ne same] at stored
    exact ⟨found, stored, .inl rfl⟩

/-- A rejected check, cut at the rate limit: the error is the limiter's, or the limiter agreed. -/
theorem check_rejected {self next : RequestGuard} {key : String} {circuitName : Option String}
    {now later : ℤ} {error : GuardError}
    (h : self.check key circuitName now later = .ok (next, .error error)) :
    ∃ result, self.rateLimiter.check key now = .ok (next.rateLimiter, result) ∧
      ((∃ e, error = .rateLimit e ∧ result = .error e ∧
          next.circuitBreakers = self.circuitBreakers) ∨
        (∃ e, error = .circuit e ∧ result = .ok () ∧ NoSlotUsed self next)) := by
  unfold RequestGuard.check at h
  cases limited : self.rateLimiter.check key now with
  | error _ => simp [limited] at h
  | ok pair =>
    obtain ⟨limiter, result⟩ := pair
    rw [limited] at h
    cases result with
    | error e =>
      simp only [ok_bind, pure_eq_ok, Except.ok.injEq, Prod.mk.injEq, Except.error.injEq] at h
      obtain ⟨rfl, rfl⟩ := h
      exact ⟨_, rfl, .inl ⟨e, rfl, rfl, rfl⟩⟩
    | ok _ =>
      simp only [ok_bind] at h
      split at h
      · simp at h
      · rename_i name breaker named
        cases asked : breaker.allowRequest later with
        | error _ => simp [asked] at h
        | ok answer =>
          obtain ⟨mid, verdict⟩ := answer
          cases verdict with
          | ok _ => simp [asked, Except.mapError] at h
          | error e =>
            simp only [asked, ok_bind, pure_eq_ok, Except.mapError, Except.ok.injEq,
              Prod.mk.injEq, Except.error.injEq] at h
            obtain ⟨rfl, rfl⟩ := h
            have known : self.circuitBreakers.lookup name = some breaker := by
              simp only [Option.bind_eq_some_iff, Option.map_eq_some_iff] at named
              obtain ⟨_, _, _, found, pair⟩ := named
              obtain ⟨rfl, rfl⟩ := Prod.mk.inj pair
              exact found
            exact ⟨_, rfl, .inr ⟨e, rfl, rfl, .insert known (allowRequest_error asked).1⟩⟩

/-- A request that the rate limit rejects costs nothing. One that the breaker rejects has passed the
rate limit before: it has cost one token, and no half-open call. -/
theorem rejected_cost (self next : RequestGuard) (key : String) (circuitName : Option String)
    (created now later : ℤ) (error : GuardError)
    (h : checkReading self key circuitName created now later = .ok (next, .error error)) :
    ∃ state, refillAlone self.rateLimiter key created now = .ok (some state) ∧
      ((∃ e, error = .rateLimit e ∧ next.rateLimiter.buckets.lookup key = some state ∧
          next.circuitBreakers = self.circuitBreakers) ∨
        (∃ e, error = .circuit e ∧
          next.rateLimiter.buckets.lookup key = some (state.spend 1) ∧ NoSlotUsed self next)) := by
  obtain ⟨result, limited, cases⟩ := check_rejected h
  obtain ⟨state, alone, stored⟩ := check_alone limited
  refine ⟨state, alone, ?_⟩
  rcases cases with ⟨e, rfl, rfl, same⟩ | ⟨e, rfl, rfl, unused⟩
  · rw [taken, spend_zero] at stored
    exact .inl ⟨e, rfl, stored, same⟩
  · exact .inr ⟨e, rfl, stored, unused⟩

/-- The guard of one circuit that has opened at its first failure. -/
def tripped : RequestGuard :=
  ((RequestGuard.new ⟨5, 1, 1000⟩).registerCircuit "svc" ⟨1, 2, 30, 3⟩).recordFailure "svc" 0 0

/-- Polling the open circuit takes a token, though refilling alone leaves all five. -/
theorem rejected_cost_polling :
    (checkReading tripped "k" (some "svc") 0 0 0).map
        (fun r => (r.1.rateLimiter.buckets.lookup "k", r.2)) =
      .ok (some ⟨4, 0⟩, .error (.circuit (.opened "svc" (some 0)))) ∧
    refillAlone tripped.rateLimiter "k" 0 0 = .ok (some ⟨5, 0⟩) := by
  decide +kernel

/-- What that poll did to the bucket and to the breaker. -/
theorem rejected_cost_tripped :
    ∃ (next : RequestGuard) (state : BucketState),
      refillAlone tripped.rateLimiter "k" 0 0 = .ok (some state) ∧
        next.rateLimiter.buckets.lookup "k" = some (state.spend 1) ∧ NoSlotUsed tripped next := by
  have polled : (checkReading tripped "k" (some "svc") 0 0 0).map Prod.snd =
      .ok (.error (.circuit (.opened "svc" (some 0)))) := by
    decide +kernel
  cases call : checkReading tripped "k" (some "svc") 0 0 0 with
  | error _ => simp [call, Except.map] at polled
  | ok answer =>
    obtain ⟨next, result⟩ := answer
    obtain rfl : result = .error (.circuit (.opened "svc" (some 0))) := by
      simpa [call, Except.map] using polled
    obtain ⟨state, alone, limited | ⟨_, _, stored, unused⟩⟩ :=
      rejected_cost tripped next "k" (some "svc") 0 0 0 _ call
    · obtain ⟨e, same, _⟩ := limited
      exact absurd same (by simp)
    · exact ⟨next, state, alone, stored, unused⟩

end BusinessOs.Core.RateLimit.GuardCost
