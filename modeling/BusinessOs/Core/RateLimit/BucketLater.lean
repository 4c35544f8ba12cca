/- Source: rust/src/rate_limit.rs (RateLimiter)
   digest: What later calls can find in a bucket, and what a refused call leaves and reports. -/

import BusinessOs.Core.RateLimit.BucketReadings

set_option autoImplicit false
set_option relaxedAutoImplicit false

namespace BusinessOs.Core.RateLimit.BucketLater

open BusinessOs.Lib.CappedTicks BusinessOs.Lib.Chrono BusinessOs.Lib.Execution
open BusinessOs.Core.RateLimit.Bucket BusinessOs.Core.RateLimit.BucketRuns
open BusinessOs.Core.RateLimit.BucketReadings

/-! ### What later calls can find -/

/-- `a` was refilled as often as `b`, and holds less by at most `g` tokens. -/
structure Within (g : ℕ) (a b : BucketState) : Prop where
  lastRefill : a.lastRefill = b.lastRefill
  le : a.tokens ≤ b.tokens
  close : b.tokens ≤ a.tokens + g

theorem Within.refl (state : BucketState) : Within 0 state state :=
  ⟨rfl, le_rfl, by simp⟩

theorem Within.eq {a b : BucketState} (h : Within 0 a b) : a = b := by
  have close := h.close
  rw [Nat.cast_zero, add_zero] at close
  exact BucketState.ext (le_antisymm h.le close) h.lastRefill

theorem Within.spend {g : ℕ} {a b : BucketState} (h : Within g a b) (n : ℕ) :
    Within (g + n) (a.spend n) b := by
  have le := h.le
  have close := h.close
  have taken : (0 : ℚ) ≤ n := by positivity
  refine ⟨h.lastRefill, ?_, ?_⟩
  · rw [BucketState.spend]
    linarith
  · rw [BucketState.spend, Nat.cast_add]
    linarith

/-- A refill keeps two buckets as far apart as they were, or brings them closer. -/
theorem Within.current {config : BucketConfig} {g : ℕ} {a b : BucketState} (h : Within g a b)
    (ha : BucketState.Whole config a) (hb : BucketState.Whole config b) (t : ℤ) :
    Within g (current config t a) (current config t b) := by
  have le := h.le
  have close := h.close
  have spare : (0 : ℚ) ≤ g := by positivity
  constructor
  · rw [current_lastRefill, current_lastRefill, h.lastRefill]
  · rw [BucketReadings.current, BucketReadings.current, credited_tokens ha, credited_tokens hb,
      h.lastRefill]
    exact min_le_min_right _ (by linarith)
  · rw [BucketReadings.current, BucketReadings.current, credited_tokens ha, credited_tokens hb,
      h.lastRefill, ← min_add_add_right]
    exact min_le_min (by linarith) (by linarith)

/-- The clock after these calls. -/
def clock : ℤ → List Reading → ℤ
  | m, [] => m
  | _, r :: rs => clock r.now rs

theorem inOrder_append {m : ℤ} {rs : List Reading} {r : Reading} :
    InOrder m (rs ++ [r]) ↔ InOrder m rs ∧ clock m rs ≤ r.created ∧ r.created ≤ r.now := by
  induction rs generalizing m with
  | nil => simp [InOrder, clock]
  | cons x rs ih => simp [InOrder, clock, ih, and_assoc]

/-- The bucket of `key` is `c` refilled at some reading up to `m`, less at most `g` tokens. -/
def Since (config : BucketConfig) (key : String) (c : BucketState) (g : ℕ) (m : ℤ)
    (s : RateLimiter) : Prop :=
  ∃ state k, s.buckets.lookup key = some state ∧ k ≤ m ∧ Within g state (current config k c)

section Runs

variable {config : BucketConfig} {key : String} {c : BucketState} {g : ℕ} {m : ℤ}
  {s t : RateLimiter}
  (positive : 0 < config.refillIntervalMs.toNat) (whole : BucketState.Whole config c)

include positive whole

/-- A call on `key` that is no reset brings `c` up to its own clock. -/
theorem Since.found (h : Since config key c g m s) (same : s.config = config) (sound : Sound s)
    (created : ℤ) {now : ℤ} (order : m ≤ now) :
    Within g (current config now (s.held key created)) (current config now c) := by
  obtain ⟨state, k, stored, past, within⟩ := h
  have held : s.held key created = state := by rw [RateLimiter.held, stored, Option.getD_some]
  have own : BucketState.Whole config state := same ▸ sound.whole key state stored
  rw [held, ← current_current positive whole (past.trans order)]
  exact within.current own (current_whole whole k) now

theorem Since.step {r : Reading} (h : Since config key c g m s) (step : ReadingStep s r t)
    (same : s.config = config) (sound : Sound s) (range : r.InRange)
    (after : m ≤ r.created) (order : r.created ≤ r.now) (keeps : r.call ≠ .reset key) :
    Since config key c (g + r.event.granted key) r.now t := by
  have apos : 0 < s.config.refillIntervalMs.toNat := same ▸ positive
  by_cases own : r.call.key = key
  · subst own
    have noReset : ∀ k, r.call ≠ .reset k := r.call.resets_or_keeps.resolve_left keeps
    have found := h.found positive whole same sound r.created (after.trans order)
    have stored := step.spends apos sound range noReset
    rw [same] at stored
    exact ⟨_, r.now, stored, le_rfl, found.spend _⟩
  · obtain ⟨state, k, stored, past, within⟩ := h
    have nothing : r.event.granted key = 0 := granted_other own
    rw [(step.agreesOff apos sound range).lookup key (Ne.symm own)] at stored
    rw [nothing, Nat.add_zero]
    exact ⟨state, k, stored, past.trans (after.trans order), within⟩

theorem Since.run {rs : List Reading} (run : Run ReadingStep s rs t)
    (h : Since config key c g m s) (same : s.config = config) (sound : Sound s)
    (range : ∀ r ∈ rs, r.InRange) (order : InOrder m rs) (keeps : ∀ r ∈ rs, r.call ≠ .reset key) :
    Since config key c (g + granted key (rs.map Reading.event)) (clock m rs) t := by
  induction run generalizing g m with
  | nil s => simpa [granted, clock] using h
  | @cons s u t r rs step rest ih =>
    have first := range r List.mem_cons_self
    have apos : 0 < s.config.refillIntervalMs.toNat := same ▸ positive
    have next := h.step positive whole step same sound first order.1 order.2.1
      (keeps r List.mem_cons_self)
    have last := ih next ((step.agreesOff apos sound first).config.symm.trans same)
      (step.sound apos sound first) (fun x hx => range x (List.mem_cons_of_mem r hx)) order.2.2
      (fun x hx => keeps x (List.mem_cons_of_mem r hx))
    rw [List.map_cons, granted, List.map_cons, List.sum_cons, ← Nat.add_assoc]
    exact last

end Runs

/-! ### The intervals that a refused call lacks -/

/-- Intervals whose credit completes `n` tokens, the capacity left aside. -/
def needed (config : BucketConfig) (n : ℕ) (state : BucketState) : ℕ :=
  ⌈((n : ℚ) - state.tokens) / config.refillRate.toNat⌉₊

section Needed

variable {config : BucketConfig} {state : BucketState} {n : ℕ}
  (rated : 0 < config.refillRate.toNat)

include rated

theorem needed_le_iff (j : ℕ) :
    needed config n state ≤ j ↔ (n : ℚ) ≤ state.tokens + j * config.refillRate.toNat := by
  have pos : (0 : ℚ) < config.refillRate.toNat := by exact_mod_cast rated
  rw [needed, Nat.ceil_le, div_le_iff₀ pos, sub_le_iff_le_add']

theorem needed_pos (short : state.tokens < n) : 0 < needed config n state := by
  have pos : (0 : ℚ) < config.refillRate.toNat := by exact_mod_cast rated
  exact Nat.ceil_pos.mpr (div_pos (sub_pos.mpr short) pos)

/-- The request is covered from the refill instant on that completes it, if it ever fits. -/
theorem holds_iff (positive : 0 < config.refillIntervalMs.toNat)
    (whole : BucketState.Whole config state) (short : state.tokens < n) (t : ℤ) :
    (n : ℚ) ≤ (current config t state).tokens ↔
      n ≤ config.maxTokens.toNat ∧
        state.lastRefill + needed config n state * interval config ≤ t := by
  rw [BucketReadings.current, credited_tokens whole, le_min_iff, ← needed_le_iff rated,
    le_ticksBy_iff (interval_pos positive) (needed_pos rated short), Nat.cast_le]
  exact and_comm

/-- The reported wait is the lacking intervals, as far as a `u64` of milliseconds goes. -/
theorem retryAfterMs_toNat {n : UInt32} (whole : BucketState.Whole config state) :
    (retryAfterMs config n state.tokens).toNat =
      min (needed config n.toNat state * config.refillIntervalMs.toNat) (2 ^ 64 - 1) := by
  have some : config.refillRate ≠ 0 := by
    rintro none
    rw [none] at rated
    exact absurd rated (by decide)
  have few : needed config n.toNat state ≤ n.toNat := by
    obtain ⟨m, tokens, _⟩ := whole
    have held : (0 : ℚ) ≤ state.tokens := by
      rw [tokens]
      positivity
    have gain : (1 : ℚ) ≤ config.refillRate.toNat := by exact_mod_cast rated
    have more : (n.toNat : ℚ) * 1 ≤ n.toNat * config.refillRate.toNat := by gcongr
    rw [needed_le_iff rated]
    linarith
  have small : needed config n.toNat state < 2 ^ 64 - 1 := by
    have := n.toNat_lt
    omega
  have intervals : (floatAsU64
      (⌈((n.toNat : ℚ) - state.tokens) / config.refillRate.toNat⌉ : ℤ)).toNat =
        needed config n.toNat state := by
    rw [floatAsU64, Int.floor_intCast, Int.ceil_toNat, ← needed, min_eq_left small.le,
      UInt64.toNat_ofNat', Nat.mod_eq_of_lt (by omega)]
  rw [retryAfterMs, if_neg some, saturatingMul, intervals, UInt64.toNat_ofNat',
    Nat.mod_eq_of_lt (by omega)]

end Needed

/-! ### Refused calls -/

theorem current_le {config : BucketConfig} (positive : 0 < config.refillIntervalMs.toNat)
    {state : BucketState} {now m : ℤ} (before : state.lastRefill ≤ m) (order : now ≤ m) :
    (current config now state).lastRefill ≤ m := by
  have last := (ticksBy_eq_iff (t := now) (interval_pos positive)).mp
    (rfl : ticksBy state.lastRefill (interval config) now = _)
  rw [current_lastRefill]
  rcases Nat.eq_zero_or_pos (ticksBy state.lastRefill (interval config) now) with none | some
  · rw [none, Nat.cast_zero, zero_mul, add_zero]
    exact before
  · exact (last.1 some).trans order

/-- No bucket was refilled at an instant after `m`. -/
def Past (m : ℤ) (s : RateLimiter) : Prop :=
  ∀ key state, s.buckets.lookup key = some state → state.lastRefill ≤ m

theorem Past.held {m : ℤ} {s : RateLimiter} (h : Past m s) (key : String) {created : ℤ}
    (order : created ≤ m) : (s.held key created).lastRefill ≤ m := by
  unfold RateLimiter.held
  cases found : s.buckets.lookup key with
  | none => exact order
  | some state => exact h key state found

theorem Past.step {m : ℤ} {s t : RateLimiter} {r : Reading} (h : Past m s)
    (step : ReadingStep s r t) (positive : 0 < s.config.refillIntervalMs.toNat) (sound : Sound s)
    (range : r.InRange) (created : r.created ≤ m) (now : r.now ≤ m) : Past m t := by
  intro key state stored
  by_cases own : key = r.call.key
  · subst own
    rcases r.call.resets_or_keeps with resets | noReset
    · rw [step.reset resets, Option.some.injEq] at stored
      rw [← stored]
      exact now
    · have spends := step.spends positive sound range noReset
      rw [stored, Option.some.injEq] at spends
      rw [spends]
      exact current_le positive (h.held r.call.key created) now
  · rw [← (step.agreesOff positive sound range).lookup key own] at stored
    exact h key state stored

theorem run_past {m : ℤ} {s t : RateLimiter} {rs : List Reading} (run : Run ReadingStep s rs t)
    (positive : 0 < s.config.refillIntervalMs.toNat) (sound : Sound s)
    (range : ∀ r ∈ rs, r.InRange) (order : ∀ r ∈ rs, r.created ≤ m ∧ r.now ≤ m)
    (start : Past m s) : Past m t := by
  refine (run.invariant_mem (I := fun a => (a.config = s.config ∧ Sound a) ∧ Past m a) ?_
    ⟨⟨rfl, sound⟩, start⟩).2
  rintro a r b member ⟨⟨config, ha⟩, past⟩ step
  have apos : 0 < a.config.refillIntervalMs.toNat := config ▸ positive
  have next := step.agreesOff apos ha (range r member)
  exact ⟨⟨next.config.symm.trans config, step.sound apos ha (range r member)⟩,
    past.step step apos ha (range r member) (order r member).1 (order r member).2⟩

/-- A refused `check_n` leaves the bucket it refilled, and reports a wait that is read off it. -/
theorem step_refused {s t : RateLimiter} {r : Reading} {key : String} {n : UInt32}
    {wait : UInt64} (step : ReadingStep s r t) (positive : 0 < s.config.refillIntervalMs.toNat)
    (sound : Sound s) (range : r.InRange) (call : r.call = .checkN key n)
    (reply : r.reply = .outcome (.error (.exceeded key wait))) :
    (current s.config r.now (s.held key r.created)).tokens < n.toNat ∧
      wait = retryAfterMs s.config n (current s.config r.now (s.held key r.created)).tokens ∧
      t.buckets.lookup key = some (current s.config r.now (s.held key r.created)) := by
  obtain ⟨answered, stored⟩ := step.current positive sound range (by simp [call])
  rw [call, Call.key] at answered stored
  rw [reply, answer, Reply.outcome.injEq, verdict] at answered
  rw [asked, serve] at stored
  by_cases enough :
      (n.toNat : ℚ) ≤ (current s.config r.now (s.held key r.created)).tokens
  · rw [if_pos enough] at answered
    exact absurd answered (by simp)
  · rw [if_neg enough] at answered stored
    simp only [Except.error.injEq, RateLimitError.exceeded.injEq, true_and] at answered
    exact ⟨not_le.mp enough, answered, stored⟩

/-- The refused call has left the refilled bucket `c`, short of `n` tokens, and its wait is read off
that bucket. -/
structure Refused (config : BucketConfig) (key : String) (n : UInt32) (now : ℤ) (wait : UInt64)
    (c : BucketState) (s : RateLimiter) : Prop where
  same : s.config = config
  sound : Sound s
  stored : s.buckets.lookup key = some c
  settled : current config now c = c
  short : c.tokens < n.toNat
  waits : wait = retryAfterMs config n c.tokens

theorem run_refused {config : BucketConfig} (positive : 0 < config.refillIntervalMs.toNat)
    {key : String} {n : UInt32} {past : List Reading} {refused : Reading} {wait : UInt64}
    {a s : RateLimiter} (history : Run ReadingStep (RateLimiter.new config) past a)
    (step : ReadingStep a refused s) (call : refused.call = .checkN key n)
    (reply : refused.reply = .outcome (.error (.exceeded key wait)))
    (pastRange : ∀ r ∈ past, r.InRange) (range : refused.InRange) :
    Refused config key n refused.now wait
      (current config refused.now (a.held key refused.created)) s := by
  obtain ⟨same, sound⟩ := readings_sound history positive (new_sound config) pastRange
  have same : a.config = config := same
  have apos : 0 < a.config.refillIntervalMs.toNat := same ▸ positive
  obtain ⟨short, waits, stored⟩ := step_refused step apos sound range call reply
  have held := sound.held_whole key refused.created
  rw [same] at short waits stored held
  exact {
    same := (step.agreesOff apos sound range).config.symm.trans same
    sound := step.sound apos sound range
    stored := stored
    settled := current_current positive held (le_refl refused.now)
    short := short
    waits := waits }

section Refusals

variable {config : BucketConfig} {key : String} {n : UInt32} {now : ℤ} {wait : UInt64}
  {c : BucketState} {s : RateLimiter}

theorem Refused.whole (h : Refused config key n now wait c s) : BucketState.Whole config c :=
  h.same ▸ h.sound.whole key c h.stored

theorem Refused.since (h : Refused config key n now wait c s) : Since config key c 0 now s :=
  ⟨c, now, h.stored, le_rfl, h.settled.symm ▸ .refl c⟩

/-- The clock of the refusal is less than one interval past the refill. -/
theorem Refused.soon (h : Refused config key n now wait c s)
    (positive : 0 < config.refillIntervalMs.toNat) : now < c.lastRefill + interval config := by
  have last := lt_current positive now c
  rwa [h.settled] at last

theorem Refused.wait_toNat (h : Refused config key n now wait c s)
    (rated : 0 < config.refillRate.toNat) :
    wait.toNat =
      min (needed config n.toNat c * config.refillIntervalMs.toNat) (2 ^ 64 - 1) := by
  rw [h.waits]
  exact retryAfterMs_toNat rated h.whole

end Refusals

/-- A later request is decided by the refused bucket brought up to its clock, if nothing was handed
out since. -/
theorem Since.answers {config : BucketConfig} {key : String} {c : BucketState} {m : ℤ}
    {s : RateLimiter} (h : Since config key c 0 m s)
    (positive : 0 < config.refillIntervalMs.toNat) (whole : BucketState.Whole config c)
    (same : s.config = config) (sound : Sound s) {created now : ℤ}
    (hc : Representable created) (hn : Representable now) (order : m ≤ now) (n : UInt32) :
    ∃ t : RateLimiter, performReading s created now (.checkN key n) =
      .ok (t, .outcome (verdict config key n (current config now c))) := by
  have found := (h.found positive whole same sound created order).eq
  have noReset : ∀ k, Call.checkN key n ≠ .reset k := by simp
  obtain ⟨t, returns, _⟩ := performReading_current (same ▸ positive) sound hc hn _ noReset
  rw [same, Call.key, found, answer] at returns
  exact ⟨t, returns⟩

end BusinessOs.Core.RateLimit.BucketLater
