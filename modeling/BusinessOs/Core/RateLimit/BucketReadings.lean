/- Source: rust/src/rate_limit.rs (RateLimiter)
   digest: What one call answers and stores, with the clocks it read on its way. -/

import BusinessOs.Core.RateLimit.BucketRuns
import BusinessOs.Lib.CappedTicks

set_option autoImplicit false
set_option relaxedAutoImplicit false

namespace BusinessOs.Core.RateLimit.BucketReadings

open BusinessOs.Lib.CappedTicks BusinessOs.Lib.Chrono BusinessOs.Lib.Execution
open BusinessOs.Core.RateLimit.Bucket BusinessOs.Core.RateLimit.BucketRuns

/-! ### The bucket a call works on -/

/-- The bucket with every interval credited that has ended by `now`. -/
def current (config : BucketConfig) (now : ℤ) (state : BucketState) : BucketState :=
  BucketState.credited config (ticksBy state.lastRefill (interval config) now) state

theorem interval_pos {config : BucketConfig} (positive : 0 < config.refillIntervalMs.toNat) :
    0 < interval config := by
  unfold interval
  omega

theorem refill_current {config : BucketConfig} {now : ℤ} {state : BucketState}
    (positive : 0 < config.refillIntervalMs.toNat) (hn : Representable now)
    (hs : Representable state.lastRefill) :
    state.refill config now = .ok (current config now state) := by
  obtain ⟨k, result, lands, soon⟩ := refill_spec positive hn hs
  rw [credited_lastRefill] at lands soon
  have count := (ticksBy_eq_iff (interval_pos positive)).mpr ⟨lands, soon⟩
  rw [result, current, count]

theorem current_whole {config : BucketConfig} {state : BucketState}
    (whole : BucketState.Whole config state) (now : ℤ) :
    BucketState.Whole config (current config now state) :=
  credited_whole _ whole

theorem current_lastRefill (config : BucketConfig) (now : ℤ) (state : BucketState) :
    (current config now state).lastRefill =
      state.lastRefill + ticksBy state.lastRefill (interval config) now * interval config :=
  credited_lastRefill config state _

/-- A refill leaves less than one interval to the clock. -/
theorem lt_current {config : BucketConfig} (positive : 0 < config.refillIntervalMs.toNat)
    (now : ℤ) (state : BucketState) :
    now < (current config now state).lastRefill + interval config := by
  have last := (ticksBy_eq_iff (t := now) (interval_pos positive)).mp
    (rfl : ticksBy state.lastRefill (interval config) now = _)
  rw [current_lastRefill]
  exact last.2

/-- What a touch makes of a bucket is decided by the clock alone. -/
theorem Touched.eq_current {config : BucketConfig} {now : ℤ} {g : ℕ} {before after : BucketState}
    (positive : 0 < config.refillIntervalMs.toNat) (h : Touched config now g before after) :
    after = (current config now before).spend g ∧
      (g : ℚ) ≤ (current config now before).tokens := by
  obtain ⟨k, rfl, enough, lands, soon⟩ := h
  simp only [BucketState.spend, credited_lastRefill] at lands soon
  have count := (ticksBy_eq_iff (interval_pos positive)).mpr ⟨lands, soon⟩
  rw [current, count]
  exact ⟨rfl, enough⟩

/-- The credit of a bucket that is not over its capacity, with the one cap of `_refill`. -/
theorem credited_tokens {config : BucketConfig} {state : BucketState}
    (whole : BucketState.Whole config state) (k : ℕ) :
    (BucketState.credited config k state).tokens =
      min (state.tokens + k * config.refillRate.toNat) config.maxTokens.toNat := by
  rcases Nat.eq_zero_or_pos k with rfl | some
  · obtain ⟨n, tokens, bound⟩ := whole
    have below : state.tokens ≤ config.maxTokens.toNat := by
      rw [tokens]
      exact_mod_cast bound
    rw [credited_zero, Nat.cast_zero, zero_mul, add_zero, min_eq_left below]
  · rw [BucketState.credited, if_neg some.ne']

/-- The credit of `k` intervals, written as `k` capped ticks. -/
theorem credited_ticks {config : BucketConfig} {state : BucketState}
    (whole : BucketState.Whole config state) (k : ℕ) :
    (BucketState.credited config k state).tokens =
      (tick (config.refillRate.toNat : ℚ) config.maxTokens.toNat)^[k] state.tokens := by
  have gain : (0 : ℚ) ≤ config.refillRate.toNat := by positivity
  have below : state.tokens ≤ config.maxTokens.toNat := by
    obtain ⟨n, tokens, bound⟩ := whole
    rw [tokens]
    exact_mod_cast bound
  rw [iterate_tick gain below, credited_tokens whole, nsmul_eq_mul]

theorem credited_credited {config : BucketConfig} {state : BucketState}
    (whole : BucketState.Whole config state) (j k : ℕ) :
    BucketState.credited config j (BucketState.credited config k state) =
      BucketState.credited config (j + k) state := by
  apply BucketState.ext
  · rw [credited_ticks (credited_whole k whole), credited_ticks whole, credited_ticks whole,
      Function.iterate_add_apply]
  · rw [credited_lastRefill, credited_lastRefill, credited_lastRefill, Nat.cast_add]
    ring

/-- A bucket that was brought up to `m` is brought up to a later `t` as if from the start. -/
theorem current_current {config : BucketConfig} {state : BucketState} {m t : ℤ}
    (positive : 0 < config.refillIntervalMs.toNat) (whole : BucketState.Whole config state)
    (order : m ≤ t) : current config t (current config m state) = current config t state := by
  have pos := interval_pos positive
  have more : ticksBy state.lastRefill (interval config) m ≤
      ticksBy state.lastRefill (interval config) t := ticksBy_mono pos order
  have rest : ticksBy (current config m state).lastRefill (interval config) t =
      ticksBy state.lastRefill (interval config) t -
        ticksBy state.lastRefill (interval config) m := by
    rw [current_lastRefill, ticksBy_shift pos]
  have total : ticksBy state.lastRefill (interval config) t -
      ticksBy state.lastRefill (interval config) m +
        ticksBy state.lastRefill (interval config) m =
      ticksBy state.lastRefill (interval config) t := by omega
  calc current config t (current config m state)
      = BucketState.credited config (ticksBy state.lastRefill (interval config) t -
          ticksBy state.lastRefill (interval config) m) (current config m state) := by
        rw [current, rest]
    _ = current config t state := by
        rw [current, credited_credited whole, total, current]

/-! ### One call at one reading of the clock -/

/-- Tokens that the call asks for. -/
def asked : Call → ℕ
  | .check _ => 1
  | .checkN _ n => n.toNat
  | .available _ | .reset _ => 0

/-- Hand out `n` tokens if they are there. -/
def serve (n : ℕ) (state : BucketState) : BucketState :=
  if (n : ℚ) ≤ state.tokens then state.spend n else state

def verdict (config : BucketConfig) (key : String) (n : UInt32) (state : BucketState) :
    Except RateLimitError Unit :=
  if (n.toNat : ℚ) ≤ state.tokens then .ok ()
  else .error (.exceeded key (retryAfterMs config n state.tokens))

/-- The answer of a call that finds this bucket after its refill. -/
def answer (config : BucketConfig) (state : BucketState) : Call → Reply
  | .check key => .outcome (verdict config key 1 state)
  | .checkN key n => .outcome (verdict config key n state)
  | .available _ => .count (floatAsU32 ⌊state.tokens⌋)
  | .reset _ => .done

theorem verdict_ok_iff {config : BucketConfig} {key : String} {n : UInt32} {state : BucketState} :
    verdict config key n state = .ok () ↔ (n.toNat : ℚ) ≤ state.tokens := by
  unfold verdict
  split_ifs with enough <;> simp [enough]

theorem available_iff {config : BucketConfig} {state : BucketState}
    (whole : BucketState.Whole config state) (n : UInt32) :
    n ≤ floatAsU32 ⌊state.tokens⌋ ↔ (n.toNat : ℚ) ≤ state.tokens := by
  constructor
  · intro h
    exact tokens_of_available whole h
  · intro h
    obtain ⟨m, tokens, bound⟩ := whole
    have small := config.maxTokens.toNat_lt
    have enough : n.toNat ≤ m := by
      rw [tokens] at h
      exact_mod_cast h
    have stored : (floatAsU32 ⌊state.tokens⌋).toNat = min m (2 ^ 32 - 1) := by
      rw [tokens, floatAsU32_floor]
    have : n.toNat ≤ (floatAsU32 ⌊state.tokens⌋).toNat := by omega
    exact this

theorem serve_zero {config : BucketConfig} {state : BucketState}
    (whole : BucketState.Whole config state) : serve 0 state = state := by
  obtain ⟨n, tokens, _⟩ := whole
  have enough : ((0 : ℕ) : ℚ) ≤ state.tokens := by
    rw [tokens]
    positivity
  rw [serve, if_pos enough, spend_zero]

section Calls

variable {self : RateLimiter} {now : ℤ}
  (positive : 0 < self.config.refillIntervalMs.toNat) (sound : Sound self)
  (hn : Representable now)

include positive sound hn

theorem refilled_current (key : String) :
    ∃ next : RateLimiter,
      self.refilled key now = .ok (next, current self.config now (self.held key now)) ∧
      next.buckets.lookup key = some (current self.config now (self.held key now)) ∧
      self.AgreesOff key next :=
  refilled_ok (refill_current positive hn (sound.held_instant key hn))

theorem checkN_current (key : String) (n : UInt32) :
    ∃ next : RateLimiter,
      self.checkN key n now =
        .ok (next, verdict self.config key n (current self.config now (self.held key now))) ∧
      next.buckets.lookup key =
        some (serve n.toNat (current self.config now (self.held key now))) ∧
      self.AgreesOff key next := by
  obtain ⟨next, call, stored, agrees⟩ := refilled_current positive sound hn key
  have whole := current_whole (sound.held_whole key now) now
  have enough := available_iff whole n
  generalize current self.config now (self.held key now) = state at call stored enough ⊢
  unfold verdict serve
  by_cases there : (n.toNat : ℚ) ≤ state.tokens
  · refine ⟨{ next with buckets := next.buckets.insert key (state.spend n.toNat) }, ?_, ?_,
      agrees.trans (agreesOff_insert _ _ _)⟩
    · simp only [RateLimiter.checkN, call, ok_bind, enough.mpr there, there, if_true, pure_eq_ok]
    · rw [AList.lookup_insert, if_pos there]
  · refine ⟨next, ?_, ?_, agrees⟩
    · have short : ¬ n ≤ floatAsU32 ⌊state.tokens⌋ := fun h => there (enough.mp h)
      simp only [RateLimiter.checkN, call, ok_bind, short, there, if_false, pure_eq_ok,
        agrees.config]
    · rw [stored, if_neg there]

/-- Every call but `reset` answers and stores what the refilled bucket decides. -/
theorem perform_current (call : Call) (keeps : ∀ key, call ≠ .reset key) :
    ∃ next : RateLimiter,
      perform self now call =
        .ok (next, answer self.config (current self.config now (self.held call.key now)) call) ∧
      next.buckets.lookup call.key =
        some (serve (asked call) (current self.config now (self.held call.key now))) ∧
      self.AgreesOff call.key next := by
  cases call with
  | check key =>
    obtain ⟨next, returns, stored, agrees⟩ := checkN_current positive sound hn key 1
    refine ⟨next, ?_, stored, agrees⟩
    simp only [perform, RateLimiter.check, returns, ok_bind, pure_eq_ok, answer, Call.key]
  | checkN key n =>
    obtain ⟨next, returns, stored, agrees⟩ := checkN_current positive sound hn key n
    refine ⟨next, ?_, stored, agrees⟩
    simp only [perform, returns, ok_bind, pure_eq_ok, answer, Call.key]
  | available key =>
    obtain ⟨next, returns, stored, agrees⟩ := refilled_current positive sound hn key
    have whole := current_whole (sound.held_whole key now) now
    refine ⟨next, ?_, ?_, agrees⟩
    · simp only [perform, RateLimiter.available, returns, ok_bind, pure_eq_ok, answer, Call.key]
    · rw [asked, Call.key, serve_zero whole]
      exact stored
  | reset key => exact absurd rfl (keeps key)

end Calls

/-! ### Calls that read the clock twice -/

/-- One call with the clocks it read: `created` in `ensure_bucket`, `now` after it. -/
structure Reading where
  call : Call
  created : ℤ
  now : ℤ
  reply : Reply

def Reading.event (r : Reading) : Event := ⟨r.call, r.now, r.reply⟩

/-- Both readings are instants that chrono can hold. -/
def Reading.InRange (r : Reading) : Prop := Representable r.created ∧ Representable r.now

instance (r : Reading) : Decidable r.InRange := inferInstanceAs (Decidable (_ ∧ _))

/-- The limiter after the call's `ensure_bucket`; a reset does without. -/
def opened (self : RateLimiter) (created : ℤ) : Call → RateLimiter
  | .reset _ => self
  | call => self.ensureBucket call.key created

/-- The bucket that `ensure_bucket` makes at `created` is there when the rest of the call looks for
it at `now`. -/
def performReading (self : RateLimiter) (created now : ℤ) (call : Call) :
    Except Panic (RateLimiter × Reply) :=
  perform (opened self created call) now call

def ReadingStep (s : RateLimiter) (r : Reading) (t : RateLimiter) : Prop :=
  performReading s r.created r.now r.call = .ok (t, r.reply)

instance (s : RateLimiter) (r : Reading) (t : RateLimiter) : Decidable (ReadingStep s r t) :=
  inferInstanceAs (Decidable (_ = _))

/-- The readings of consecutive calls, from a first reading on, do not go back. -/
def InOrder : ℤ → List Reading → Prop
  | _, [] => True
  | m, r :: rs => m ≤ r.created ∧ r.created ≤ r.now ∧ InOrder r.now rs

instance decidableInOrder : (m : ℤ) → (rs : List Reading) → Decidable (InOrder m rs)
  | _, [] => inferInstanceAs (Decidable True)
  | _, r :: rs =>
    have := decidableInOrder r.now rs
    inferInstanceAs (Decidable (_ ∧ _ ∧ InOrder r.now rs))

theorem opened_agreesOff (self : RateLimiter) (created : ℤ) (call : Call) :
    self.AgreesOff call.key (opened self created call) := by
  cases call with
  | reset key => exact ⟨rfl, fun _ _ => rfl⟩
  | check key => exact ensureBucket_agreesOff self key created
  | checkN key n => exact ensureBucket_agreesOff self key created
  | available key => exact ensureBucket_agreesOff self key created

/-- The bucket that `ensure_bucket` leaves is the stored one, or a full one made at `created`. -/
theorem opened_lookup (self : RateLimiter) (created : ℤ) {call : Call}
    (keeps : ∀ key, call ≠ .reset key) :
    (opened self created call).buckets.lookup call.key = some (self.held call.key created) := by
  cases call with
  | reset key => exact absurd rfl (keeps key)
  | check key => exact ensureBucket_lookup self key created
  | checkN key n => exact ensureBucket_lookup self key created
  | available key => exact ensureBucket_lookup self key created

theorem opened_held (self : RateLimiter) (created now : ℤ) {call : Call}
    (keeps : ∀ key, call ≠ .reset key) :
    (opened self created call).held call.key now = self.held call.key created := by
  rw [RateLimiter.held, opened_lookup self created keeps, Option.getD_some]

theorem opened_sound {self : RateLimiter} (sound : Sound self) {created : ℤ}
    (hc : Representable created) (call : Call) : Sound (opened self created call) := by
  rcases call.resets_or_keeps with resets | keeps
  · rw [resets]
    exact sound
  · exact sound.update (opened_agreesOff self created call) (opened_lookup self created keeps)
      (sound.held_whole call.key created) (sound.held_instant call.key hc)

section Steps

variable {s t : RateLimiter} {r : Reading}

theorem ReadingStep.agreesOff (step : ReadingStep s r t)
    (positive : 0 < s.config.refillIntervalMs.toNat) (sound : Sound s) (range : r.InRange) :
    s.AgreesOff r.call.key t := by
  have opens := opened_agreesOff s r.created r.call
  have rest : Step (opened s r.created r.call) r.event t := step
  exact opens.trans (rest.agreesOff (opens.config ▸ positive)
    (opened_sound sound range.1 r.call) range.2)

theorem ReadingStep.sound (step : ReadingStep s r t)
    (positive : 0 < s.config.refillIntervalMs.toNat) (sound : Sound s) (range : r.InRange) :
    Sound t := by
  have opens := opened_agreesOff s r.created r.call
  have rest : Step (opened s r.created r.call) r.event t := step
  exact rest.sound (opens.config ▸ positive) (opened_sound sound range.1 r.call) range.2

/-- A call other than a reset, as the bucket it finds decides it. -/
theorem performReading_current (positive : 0 < s.config.refillIntervalMs.toNat) (sound : Sound s)
    {created now : ℤ} (hc : Representable created) (hn : Representable now) (call : Call)
    (keeps : ∀ key, call ≠ .reset key) :
    ∃ t : RateLimiter,
      performReading s created now call =
        .ok (t, answer s.config (current s.config now (s.held call.key created)) call) ∧
      t.buckets.lookup call.key =
        some (serve (asked call) (current s.config now (s.held call.key created))) := by
  have opens := opened_agreesOff s created call
  obtain ⟨t, returns, stored, _⟩ :=
    perform_current (opens.config ▸ positive) (opened_sound sound hc call) hn call keeps
  rw [opened_held s created now keeps, ← opens.config] at returns stored
  exact ⟨t, returns, stored⟩

theorem ReadingStep.current (step : ReadingStep s r t)
    (positive : 0 < s.config.refillIntervalMs.toNat) (sound : Sound s) (range : r.InRange)
    (keeps : ∀ key, r.call ≠ .reset key) :
    r.reply =
      answer s.config (current s.config r.now (s.held r.call.key r.created)) r.call ∧
    t.buckets.lookup r.call.key =
      some (serve (asked r.call) (current s.config r.now (s.held r.call.key r.created))) := by
  obtain ⟨next, returns, stored⟩ :=
    performReading_current positive sound range.1 range.2 r.call keeps
  have same : (t, r.reply) = (next, _) := Except.ok.inj (step.symm.trans returns)
  rw [Prod.mk.injEq] at same
  exact ⟨same.2, same.1 ▸ stored⟩

/-- What a call other than a reset hands out comes from the refilled bucket. -/
theorem ReadingStep.spends (step : ReadingStep s r t)
    (positive : 0 < s.config.refillIntervalMs.toNat) (sound : Sound s) (range : r.InRange)
    (keeps : ∀ key, r.call ≠ .reset key) :
    t.buckets.lookup r.call.key =
      some ((BucketReadings.current s.config r.now (s.held r.call.key r.created)).spend
        (r.event.granted r.call.key)) := by
  have opens := opened_agreesOff s r.created r.call
  have rest : Step (opened s r.created r.call) r.event t := step
  obtain ⟨state, stored, _, touched⟩ := rest.touched (opens.config ▸ positive)
    (opened_sound sound range.1 r.call) range.2 keeps
  rw [← opens.config] at touched
  have found := (Touched.eq_current positive touched).1
  rw [found] at stored
  have held : (opened s r.created r.call).held r.call.key r.now =
      s.held r.call.key r.created := opened_held s r.created r.now keeps
  rw [← held]
  exact stored

theorem ReadingStep.reset (step : ReadingStep s r t) {key : String} (resets : r.call = .reset key) :
    t.buckets.lookup key = some (.full s.config r.now) := by
  unfold ReadingStep performReading at step
  rw [resets, opened, ← resets] at step
  have call : Step s r.event t := step
  exact (call.reset resets).1

end Steps

/-- The configuration and the soundness of the buckets along a run. -/
theorem readings_sound {s t : RateLimiter} {rs : List Reading} (run : Run ReadingStep s rs t)
    (positive : 0 < s.config.refillIntervalMs.toNat) (sound : Sound s)
    (range : ∀ r ∈ rs, r.InRange) : t.config = s.config ∧ Sound t := by
  refine run.invariant_mem (I := fun a => a.config = s.config ∧ Sound a) ?_ ⟨rfl, sound⟩
  intro a r b member ⟨config, ha⟩ step
  have apos : 0 < a.config.refillIntervalMs.toNat := config ▸ positive
  exact ⟨(step.agreesOff apos ha (range r member)).config.symm.trans config,
    step.sound apos ha (range r member)⟩

end BusinessOs.Core.RateLimit.BucketReadings
