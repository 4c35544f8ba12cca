/- Source: rust/src/rate_limit.rs (RateLimiter)
   digest: The multi-key token bucket with its refill, and what one call does to one bucket. -/

import BusinessOs.Lib.Chrono
import Mathlib.Data.List.AList
import Mathlib.Algebra.Order.Field.Rat
import Mathlib.Tactic.Linarith
import Mathlib.Tactic.Positivity

set_option autoImplicit false
set_option relaxedAutoImplicit false

namespace BusinessOs.Core.RateLimit.Bucket

open BusinessOs.Lib.Chrono

/-- Configuration for a single token bucket. -/
structure BucketConfig where
  maxTokens : UInt32
  refillRate : UInt32
  refillIntervalMs : UInt64
  deriving DecidableEq, Repr

/-- Runtime state of one bucket: the `f64` count as an exact number, and an instant. -/
@[ext]
structure BucketState where
  tokens : ℚ
  lastRefill : ℤ
  deriving DecidableEq, Repr

inductive RateLimitError
  | exceeded (key : String) (retryAfterMs : UInt64)
  deriving DecidableEq, Repr

/-- Each key has its own bucket; the configuration is shared. -/
structure RateLimiter where
  buckets : AList fun _ : String => BucketState
  config : BucketConfig

instance : DecidableEq RateLimiter := fun a b =>
  decidable_of_iff (a.buckets.entries = b.buckets.entries ∧ a.config = b.config) (by
    cases a
    cases b
    simp only [RateLimiter.mk.injEq, AList.ext_iff])

def RateLimiter.new (config : BucketConfig) : RateLimiter := ⟨∅, config⟩

/-- A full bucket that was last refilled now. -/
def BucketState.full (config : BucketConfig) (now : ℤ) : BucketState :=
  ⟨config.maxTokens.toNat, now⟩

def RateLimiter.ensureBucket (self : RateLimiter) (key : String) (now : ℤ) : RateLimiter :=
  if key ∈ self.buckets then self
  else { self with buckets := self.buckets.insert key (.full self.config now) }

/-- The body of `_refill` on the bucket it finds. -/
def BucketState.refill (config : BucketConfig) (now : ℤ) (state : BucketState) :
    Except Panic BucketState :=
  let elapsedMs := (max (numMilliseconds (now - state.lastRefill)) 0).toNat
  if config.refillIntervalMs.toNat ≤ elapsedMs then do
    let intervals ← divU64 elapsedMs config.refillIntervalMs.toNat
    let tokensToAdd : ℚ := intervals * config.refillRate.toNat
    -- `last_refill` advances by the consumed intervals only, which keeps its phase
    let consumed ← mulU64 intervals config.refillIntervalMs.toNat
    let advance ← milliseconds (asI64 consumed)
    let lastRefill ← addDelta state.lastRefill advance
    pure ⟨min (state.tokens + tokensToAdd) config.maxTokens.toNat, lastRefill⟩
  else pure state

/-- `_refill`. -/
def RateLimiter.refill (self : RateLimiter) (key : String) (now : ℤ) :
    Except Panic RateLimiter :=
  match self.buckets.lookup key with
  | none => .ok self
  | some state => do
    let state ← state.refill self.config now
    pure { self with buckets := self.buckets.insert key state }

/-- Milliseconds after which the missing tokens should have arrived. -/
def retryAfterMs (config : BucketConfig) (tokens : UInt32) (held : ℚ) : UInt64 :=
  let deficit : ℚ := tokens.toNat - held
  if config.refillRate = 0 then UInt64.ofNat (2 ^ 64 - 1)
  else
    let intervalsNeeded := floatAsU64 (⌈deficit / config.refillRate.toNat⌉ : ℤ)
    saturatingMul intervalsNeeded config.refillIntervalMs

/-- Refill `key` and hand its bucket to the caller; `unwrap` is safe behind `ensureBucket`. -/
def RateLimiter.refilled (self : RateLimiter) (key : String) (now : ℤ) :
    Except Panic (RateLimiter × BucketState) := do
  let self ← (self.ensureBucket key now).refill key now
  match self.buckets.lookup key with
  | none => .error .unwrapNone
  | some state => .ok (self, state)

/-- `state.tokens -= tokens`. -/
def BucketState.spend (n : ℕ) (state : BucketState) : BucketState :=
  { state with tokens := state.tokens - n }

def RateLimiter.checkN (self : RateLimiter) (key : String) (tokens : UInt32) (now : ℤ) :
    Except Panic (RateLimiter × Except RateLimitError Unit) := do
  let (self, state) ← self.refilled key now
  let available := floatAsU32 ⌊state.tokens⌋
  if tokens ≤ available then
    let state := state.spend tokens.toNat
    pure ({ self with buckets := self.buckets.insert key state }, .ok ())
  else
    pure (self, .error (.exceeded key (retryAfterMs self.config tokens state.tokens)))

def RateLimiter.check (self : RateLimiter) (key : String) (now : ℤ) :
    Except Panic (RateLimiter × Except RateLimitError Unit) :=
  self.checkN key 1 now

def RateLimiter.available (self : RateLimiter) (key : String) (now : ℤ) :
    Except Panic (RateLimiter × UInt32) := do
  let (self, state) ← self.refilled key now
  pure (self, floatAsU32 ⌊state.tokens⌋)

def RateLimiter.reset (self : RateLimiter) (key : String) (now : ℤ) : RateLimiter :=
  { self with buckets := self.buckets.insert key (.full self.config now) }

def RateLimiter.bucketCount (self : RateLimiter) : ℕ := self.buckets.entries.length

/-- The refill interval in nanoseconds. -/
def interval (config : BucketConfig) : ℤ := config.refillIntervalMs.toNat * 1000000

/-- The bucket after `k` intervals were credited at once. -/
def BucketState.credited (config : BucketConfig) (k : ℕ) (state : BucketState) : BucketState :=
  if k = 0 then state
  else ⟨min (state.tokens + k * config.refillRate.toNat) config.maxTokens.toNat,
    state.lastRefill + k * interval config⟩

/-- Whole milliseconds that a refill at `now` sees on this bucket. -/
def elapsedMs (now : ℤ) (state : BucketState) : ℕ :=
  (max (numMilliseconds (now - state.lastRefill)) 0).toNat

theorem credited_zero (config : BucketConfig) (state : BucketState) :
    BucketState.credited config 0 state = state := by
  simp only [BucketState.credited, if_true]

theorem credited_lastRefill (config : BucketConfig) (state : BucketState) (k : ℕ) :
    (BucketState.credited config k state).lastRefill =
      state.lastRefill + k * interval config := by
  by_cases hk : k = 0
  · simp [BucketState.credited, hk]
  · simp [BucketState.credited, hk]

theorem consumed_interval (config : BucketConfig) (k : ℕ) :
    ((k * config.refillIntervalMs.toNat : ℕ) : ℤ) * 1000000 = k * interval config := by
  unfold interval
  push_cast
  ring

/-- Before the interval has passed, a refill leaves the bucket alone. -/
theorem refill_early {config : BucketConfig} {now : ℤ} {state : BucketState}
    (early : elapsedMs now state < config.refillIntervalMs.toNat) :
    state.refill config now = .ok state ∧ now < state.lastRefill + interval config := by
  constructor
  · have skip : ¬ config.refillIntervalMs.toNat ≤ elapsedMs now state := by omega
    simp only [BucketState.refill, ← elapsedMs.eq_def, skip, if_false]
    rfl
  · unfold interval
    by_cases forward : state.lastRefill ≤ now
    · have high := (elapsed_bounds forward).2
      rw [← elapsedMs.eq_def] at high
      omega
    · omega

/-- From one interval on, a refill credits all whole intervals that fit before the clock. -/
theorem refill_due {config : BucketConfig} {now : ℤ} {state : BucketState}
    (positive : 0 < config.refillIntervalMs.toNat) (hn : Representable now)
    (hs : Representable state.lastRefill)
    (due : config.refillIntervalMs.toNat ≤ elapsedMs now state) :
    ∃ k : ℕ, 0 < k ∧ state.refill config now = .ok (BucketState.credited config k state) ∧
      state.lastRefill + k * interval config ≤ now ∧
      now < state.lastRefill + k * interval config + interval config := by
  have small : elapsedMs now state < 2 ^ 63 := elapsed_lt hs hn
  have forward : state.lastRefill ≤ now := by
    by_contra back
    have stuck := elapsed_backward (a := state.lastRefill) (b := now) (by omega)
    rw [← elapsedMs.eq_def] at stuck
    omega
  obtain ⟨low, high⟩ := elapsed_bounds forward
  rw [← elapsedMs.eq_def] at low high
  obtain ⟨k, hk⟩ : ∃ k, k = elapsedMs now state / config.refillIntervalMs.toNat := ⟨_, rfl⟩
  have kpos : 0 < k := hk ▸ Nat.div_pos due positive
  have fits : k * config.refillIntervalMs.toNat ≤ elapsedMs now state :=
    hk ▸ Nat.div_mul_le_self _ _
  have rest : elapsedMs now state <
      k * config.refillIntervalMs.toNat + config.refillIntervalMs.toNat :=
    hk ▸ Nat.lt_div_mul_add positive
  have advance := consumed_interval config k
  have lands : state.lastRefill + k * interval config ≤ now := by omega
  have after : state.lastRefill ≤ state.lastRefill + k * interval config := by omega
  have consumed : mulU64 k config.refillIntervalMs.toNat =
      .ok (k * config.refillIntervalMs.toNat) := mulU64_lt (by omega)
  have delta : milliseconds (asI64 (k * config.refillIntervalMs.toNat)) =
      .ok (k * interval config) := by
    rw [asI64_small (by omega), milliseconds_nonneg (by omega), advance]
  have moved : addDelta state.lastRefill (k * interval config) =
      .ok (state.lastRefill + k * interval config) :=
    addDelta_representable (hs.between hn after lands)
  refine ⟨k, kpos, ?_, lands, ?_⟩
  · unfold BucketState.refill
    simp only [← elapsedMs.eq_def]
    rw [if_pos due, divU64_pos positive, ok_bind, ← hk, consumed, ok_bind, delta, ok_bind, moved,
      ok_bind, pure_eq_ok, BucketState.credited, if_neg (Nat.ne_of_gt kpos)]
  · unfold interval at advance ⊢
    omega

/-- A refill credits whole elapsed intervals, never past the clock, and leaves less than one. -/
theorem refill_spec {config : BucketConfig} {now : ℤ} {state : BucketState}
    (positive : 0 < config.refillIntervalMs.toNat) (hn : Representable now)
    (hs : Representable state.lastRefill) :
    ∃ k : ℕ, state.refill config now = .ok (BucketState.credited config k state) ∧
      (0 < k → (BucketState.credited config k state).lastRefill ≤ now) ∧
      now < (BucketState.credited config k state).lastRefill + interval config := by
  rcases Nat.lt_or_ge (elapsedMs now state) config.refillIntervalMs.toNat with early | due
  · obtain ⟨same, soon⟩ := refill_early early
    exact ⟨0, by rw [credited_zero, same], by omega, by rwa [credited_zero]⟩
  · obtain ⟨k, _, result, lands, soon⟩ := refill_due positive hn hs due
    rw [← credited_lastRefill] at lands soon
    exact ⟨k, result, fun _ => lands, soon⟩

/-- The token count is a whole number of tokens within the capacity. -/
def BucketState.Whole (config : BucketConfig) (state : BucketState) : Prop :=
  ∃ n : ℕ, state.tokens = n ∧ n ≤ config.maxTokens.toNat

theorem full_whole (config : BucketConfig) (now : ℤ) :
    BucketState.Whole config (.full config now) :=
  ⟨config.maxTokens.toNat, rfl, le_rfl⟩

theorem credited_whole {config : BucketConfig} {state : BucketState} (k : ℕ)
    (h : BucketState.Whole config state) :
    BucketState.Whole config (BucketState.credited config k state) := by
  obtain ⟨n, tokens, bound⟩ := h
  by_cases hk : k = 0
  · simpa only [BucketState.credited, hk, if_true] using ⟨n, tokens, bound⟩
  · refine ⟨min (n + k * config.refillRate.toNat) config.maxTokens.toNat, ?_, min_le_right _ _⟩
    simp only [BucketState.credited, hk, if_false, tokens]
    push_cast
    rfl

theorem credited_tokens_le (config : BucketConfig) (state : BucketState) (k : ℕ) :
    (BucketState.credited config k state).tokens ≤
      state.tokens + k * config.refillRate.toNat := by
  by_cases hk : k = 0
  · simp [BucketState.credited, hk]
  · simp only [BucketState.credited, hk, if_false]
    exact min_le_left _ _

/-- The bucket a call on `key` at `now` starts from: the stored one, or a full new one. -/
def RateLimiter.held (self : RateLimiter) (key : String) (now : ℤ) : BucketState :=
  (self.buckets.lookup key).getD (.full self.config now)

/-- Same configuration, same buckets except the one of `key`. -/
structure RateLimiter.AgreesOff (key : String) (a b : RateLimiter) : Prop where
  config : a.config = b.config
  lookup : ∀ other, other ≠ key → a.buckets.lookup other = b.buckets.lookup other

theorem RateLimiter.AgreesOff.trans {key : String} {a b c : RateLimiter}
    (h : a.AgreesOff key b) (k : b.AgreesOff key c) : a.AgreesOff key c :=
  ⟨h.config.trans k.config, fun other ne => (h.lookup other ne).trans (k.lookup other ne)⟩

theorem agreesOff_insert (self : RateLimiter) (key : String) (state : BucketState) :
    self.AgreesOff key { self with buckets := self.buckets.insert key state } :=
  ⟨rfl, fun _ ne => (AList.lookup_insert_ne ne).symm⟩

theorem ensureBucket_lookup (self : RateLimiter) (key : String) (now : ℤ) :
    (self.ensureBucket key now).buckets.lookup key = some (self.held key now) := by
  unfold RateLimiter.ensureBucket RateLimiter.held
  split_ifs with known
  · obtain ⟨state, found⟩ := Option.isSome_iff_exists.mp (AList.lookup_isSome.mpr known)
    rw [found, Option.getD_some]
  · rw [AList.lookup_insert, AList.lookup_eq_none.mpr known, Option.getD_none]

theorem ensureBucket_agreesOff (self : RateLimiter) (key : String) (now : ℤ) :
    self.AgreesOff key (self.ensureBucket key now) := by
  unfold RateLimiter.ensureBucket
  split_ifs
  · exact ⟨rfl, fun _ _ => rfl⟩
  · exact agreesOff_insert self key _

/-- What `refilled` does to the limiter is the refill of the one bucket it is asked for. -/
theorem refilled_ok {self : RateLimiter} {key : String} {now : ℤ} {state : BucketState}
    (h : (self.held key now).refill self.config now = .ok state) :
    ∃ next : RateLimiter, self.refilled key now = .ok (next, state) ∧
      next.buckets.lookup key = some state ∧ self.AgreesOff key next := by
  have config := (ensureBucket_agreesOff self key now).config
  refine ⟨{ self.ensureBucket key now with
    buckets := (self.ensureBucket key now).buckets.insert key state }, ?_,
    AList.lookup_insert _, (ensureBucket_agreesOff self key now).trans (agreesOff_insert _ _ _)⟩
  unfold RateLimiter.refilled RateLimiter.refill
  rw [ensureBucket_lookup]
  simp only [← config, h, ok_bind, pure_eq_ok, AList.lookup_insert]

/-- A whole count is granted only when it is there. -/
theorem tokens_of_available {config : BucketConfig} {state : BucketState}
    (whole : BucketState.Whole config state) {n : UInt32}
    (h : n ≤ floatAsU32 ⌊state.tokens⌋) : (n.toNat : ℚ) ≤ state.tokens := by
  obtain ⟨m, tokens, _⟩ := whole
  have bound : n.toNat ≤ (floatAsU32 ⌊state.tokens⌋).toNat := h
  rw [tokens, floatAsU32_floor] at bound
  rw [tokens]
  exact_mod_cast bound.trans (min_le_left _ _)

theorem spend_zero (state : BucketState) : state.spend 0 = state := by
  simp only [BucketState.spend, Nat.cast_zero, sub_zero]

theorem spend_whole {config : BucketConfig} {state : BucketState} {n : ℕ}
    (whole : BucketState.Whole config state) (h : (n : ℚ) ≤ state.tokens) :
    BucketState.Whole config (state.spend n) := by
  obtain ⟨m, tokens, bound⟩ := whole
  have le : n ≤ m := by
    rw [tokens] at h
    exact_mod_cast h
  refine ⟨m - n, ?_, by omega⟩
  simp only [BucketState.spend, tokens]
  push_cast [le]
  rfl

end BusinessOs.Core.RateLimit.Bucket
