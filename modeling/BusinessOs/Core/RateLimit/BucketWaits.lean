/- Source: rust/src/rate_limit.rs (RateLimiter)
   digest: How long a refused call has to wait, and whether waiting can help at all. -/

import BusinessOs.Core.RateLimit.BucketLater

set_option autoImplicit false
set_option relaxedAutoImplicit false

namespace BusinessOs.Core.RateLimit.BucketWaits

open BusinessOs.Lib.Chrono BusinessOs.Lib.Execution
open BusinessOs.Core.RateLimit.Bucket BusinessOs.Core.RateLimit.BucketRuns
open BusinessOs.Core.RateLimit.BucketReadings BusinessOs.Core.RateLimit.BucketLater

/-- The reported wait is long enough, and less than one interval too long: a request that was
refused at `t` is granted at `t + retry_after_ms` and later, and refused until one interval before.
Between the two calls nothing of the key is granted or reset. -/
theorem retry_after_exact (config : BucketConfig) (rated : 0 < config.refillRate)
    (positive : 0 < config.refillIntervalMs) (key : String) (n : UInt32)
    (fits : n ≤ config.maxTokens) (past between : List Reading) (refused : Reading)
    (wait : UInt64) (s t : RateLimiter)
    (history : Run ReadingStep (RateLimiter.new config) (past ++ [refused]) s)
    (call : refused.call = .checkN key n)
    (reply : refused.reply = .outcome (.error (.exceeded key wait)))
    (run : Run ReadingStep s between t)
    (range : ∀ r ∈ past ++ refused :: between, r.InRange)
    (before : ∀ r ∈ past, r.created ≤ refused.now ∧ r.now ≤ refused.now)
    (opening : refused.created ≤ refused.now) (order : InOrder refused.now between)
    (keeps : ∀ r ∈ between, r.call ≠ .reset key)
    (nothing : granted key (between.map Reading.event) = 0)
    (created later : ℤ) (hc : Representable created) (hl : Representable later)
    (after : clock refused.now between ≤ later) :
    (refused.now + wait.toNat * 1000000 ≤ later →
      ∃ u, ReadingStep t ⟨.checkN key n, created, later, .outcome (.ok ())⟩ u) ∧
    (later < refused.now + wait.toNat * 1000000 - interval config →
      ∃ u error, ReadingStep t ⟨.checkN key n, created, later, .outcome (.error error)⟩ u) := by
  have pos : 0 < config.refillIntervalMs.toNat := positive
  have rate : 0 < config.refillRate.toNat := rated
  obtain ⟨a, first, last⟩ := history.split
  have firstRange : ∀ r ∈ past, r.InRange := fun r hr => range r (List.mem_append_left _ hr)
  have refusedRange : refused.InRange := range refused (by simp)
  have laterRange : ∀ r ∈ between, r.InRange := fun r hr => range r (by simp [hr])
  have left := run_refused pos first (Run.single_iff.mp last) call reply firstRange refusedRange
  have early : (current config refused.now (a.held key refused.created)).lastRefill ≤
      refused.now := by
    have startPast : Past refused.now (RateLimiter.new config) := by simp [Past, RateLimiter.new]
    have held := run_past first pos (new_sound config) firstRange before startPast
    exact current_le pos (held.held key opening) le_rfl
  generalize current config refused.now (a.held key refused.created) = c at left early
  have whole := left.whole
  have soon := left.soon pos
  have finish := left.since.run pos whole run left.same left.sound laterRange order keeps
  rw [nothing, Nat.add_zero] at finish
  obtain ⟨same, tSound⟩ := readings_sound run (left.same.symm ▸ pos) left.sound laterRange
  obtain ⟨u, returns⟩ := finish.answers pos whole (same.trans left.same) tSound hc hl after n
  have covers := holds_iff rate pos whole left.short later
  have total := consumed_interval config (needed config n.toNat c)
  have length := left.wait_toNat rate
  obtain ⟨-, high⟩ := hl
  obtain ⟨low, -⟩ := refusedRange.2
  constructor
  · intro waited
    have enough : (n.toNat : ℚ) ≤ (current config later c).tokens := covers.mpr ⟨fits, by omega⟩
    rw [verdict, if_pos enough] at returns
    exact ⟨u, returns⟩
  · intro hurried
    have lacks : ¬ (n.toNat : ℚ) ≤ (current config later c).tokens := by
      intro enough
      have := (covers.mp enough).2
      omega
    rw [verdict, if_neg lacks] at returns
    exact ⟨u, _, returns⟩

/-- Two tokens are asked for when none is there and half an interval has passed. A probe and another
refusal later, the third call is granted after the two seconds that were reported; half a second
after the refusal it is still refused. -/
theorem retry_after_exact_probed :
    (∃ t u, ReadingStep t
      ⟨.checkN "k" 2, 2500000000, 2500000000, .outcome (.ok ())⟩ u) ∧
    ∃ t u error, ReadingStep t
      ⟨.checkN "k" 2, 1450000000, 1450000000, .outcome (.error error)⟩ u := by
  have opening : ReadingStep (RateLimiter.new ⟨2, 1, 1000⟩)
      ⟨.checkN "k" 2, 0, 0, .outcome (.ok ())⟩
      ⟨AList.singleton "k" ⟨0, 0⟩, ⟨2, 1, 1000⟩⟩ := by
    decide +kernel
  have refused : ReadingStep ⟨AList.singleton "k" ⟨0, 0⟩, ⟨2, 1, 1000⟩⟩
      ⟨.checkN "k" 2, 500000000, 500000000, .outcome (.error (.exceeded "k" 2000))⟩
      ⟨AList.singleton "k" ⟨0, 0⟩, ⟨2, 1, 1000⟩⟩ := by
    decide +kernel
  have probe : ReadingStep ⟨AList.singleton "k" ⟨0, 0⟩, ⟨2, 1, 1000⟩⟩
      ⟨.available "k", 1200000000, 1200000000, .count 1⟩
      ⟨AList.singleton "k" ⟨1, 1000000000⟩, ⟨2, 1, 1000⟩⟩ := by
    decide +kernel
  have again : ReadingStep ⟨AList.singleton "k" ⟨1, 1000000000⟩, ⟨2, 1, 1000⟩⟩
      ⟨.checkN "k" 2, 1400000000, 1400000000, .outcome (.error (.exceeded "k" 1000))⟩
      ⟨AList.singleton "k" ⟨1, 1000000000⟩, ⟨2, 1, 1000⟩⟩ := by
    decide +kernel
  have waits := retry_after_exact ⟨2, 1, 1000⟩ (by decide) (by decide) "k" 2 (by decide)
    [⟨.checkN "k" 2, 0, 0, .outcome (.ok ())⟩]
    [⟨.available "k", 1200000000, 1200000000, .count 1⟩,
      ⟨.checkN "k" 2, 1400000000, 1400000000, .outcome (.error (.exceeded "k" 1000))⟩]
    ⟨.checkN "k" 2, 500000000, 500000000, .outcome (.error (.exceeded "k" 2000))⟩ 2000 _ _
    (.cons opening (.single refused)) rfl rfl (.cons probe (.single again)) (by decide)
    (by decide) (by decide) (by decide) (by decide) (by decide)
  constructor
  · exact ⟨_, (waits 2500000000 2500000000 (by decide) (by decide) (by decide)).1 (by decide)⟩
  · exact ⟨_, (waits 1450000000 1450000000 (by decide) (by decide) (by decide)).2 (by decide)⟩

/-! ### Requests that no wait can help -/

/-- Some later call for `n` tokens is granted, whatever else is called before it, short of a reset
of the key. -/
def GrantedLater (key : String) (n : UInt32) (now : ℤ) (s : RateLimiter) : Prop :=
  ∃ (rs : List Reading) (r : Reading) (t : RateLimiter),
    Run ReadingStep s (rs ++ [r]) t ∧ InOrder now (rs ++ [r]) ∧ (∀ x ∈ rs ++ [r], x.InRange) ∧
      (∀ x ∈ rs, x.call ≠ .reset key) ∧ r.call = .checkN key n ∧ r.reply = .outcome (.ok ())

/-- After a refusal at `now`, the request can still be granted exactly when it fits into the bucket
and the instant that completes it is one that the clock can show. -/
theorem grantedLater_iff {config : BucketConfig} {key : String} {n : UInt32}
    {c : BucketState} {now : ℤ} {wait : UInt64} {s : RateLimiter}
    (h : Refused config key n now wait c s) (rated : 0 < config.refillRate.toNat)
    (positive : 0 < config.refillIntervalMs.toNat) (hn : Representable now) :
    GrantedLater key n now s ↔ n ≤ config.maxTokens ∧
      Representable (c.lastRefill + needed config n.toNat c * interval config) := by
  have whole := h.whole
  have short := h.short
  have start := h.since
  have soon := h.soon positive
  have pos := interval_pos positive
  have late : now ≤ c.lastRefill + needed config n.toNat c * interval config := by
    have some : (1 : ℤ) ≤ needed config n.toNat c := by exact_mod_cast needed_pos rated short
    have : interval config * 1 ≤ interval config * needed config n.toNat c := by gcongr
    rw [mul_comm (needed config n.toNat c : ℤ)]
    omega
  constructor
  · rintro ⟨rs, r, t, run, order, range, keeps, call, reply⟩
    obtain ⟨u, before, last⟩ := run.split
    obtain ⟨order, after, forward⟩ := inOrder_append.mp order
    have beforeRange : ∀ x ∈ rs, x.InRange := fun x hx => range x (List.mem_append_left _ hx)
    have hr : r.InRange := range r (by simp)
    obtain ⟨config', uSound⟩ := readings_sound before (h.same.symm ▸ positive) h.sound beforeRange
    have uSame : u.config = config := config'.trans h.same
    have reached := start.run positive whole before h.same h.sound beforeRange order keeps
    have found := reached.found positive whole uSame uSound r.created (after.trans forward)
    have step : ReadingStep u r t := Run.single_iff.mp last
    have answered := (step.current (uSame.symm ▸ positive) uSound hr (by simp [call])).1
    rw [call, Call.key, reply, answer, uSame, Reply.outcome.injEq, eq_comm, verdict_ok_iff]
      at answered
    obtain ⟨fits, arrived⟩ :=
      (holds_iff rated positive whole short r.now).mp (answered.trans found.le)
    exact ⟨fits, hn.between hr.2 late arrived⟩
  · rintro ⟨fits, instant⟩
    obtain ⟨t, returns⟩ := start.answers positive whole h.same h.sound instant instant late n
    have enough := (holds_iff rated positive whole short _).mpr ⟨fits, le_rfl⟩
    rw [verdict, if_pos enough] at returns
    refine ⟨[], ⟨.checkN key n, _, _, .outcome (.ok ())⟩, t, .single returns,
      ⟨late, le_rfl, trivial⟩, ?_, by simp, rfl, rfl⟩
    simpa [Reading.InRange] using instant

/-- The refused bucket can wait with reason, or is told to wait for ever. -/
def Honest (config : BucketConfig) (n : UInt32) (c : BucketState) : Prop :=
  config.refillRate = 0 ∨
    2 ^ 64 - 1 ≤ needed config n.toNat c * config.refillIntervalMs.toNat ∨
    (n ≤ config.maxTokens ∧
      Representable (c.lastRefill + needed config n.toNat c * interval config))

/-- A request that no later call can be granted is told to wait for ever exactly under `Honest`. A
request beyond the capacity, with a refill rate, is not: its wait looks like any other. -/
theorem infinite_wait_iff (config : BucketConfig) (positive : 0 < config.refillIntervalMs)
    (key : String) (n : UInt32) (past : List Reading) (refused : Reading) (wait : UInt64)
    (a s : RateLimiter) (history : Run ReadingStep (RateLimiter.new config) past a)
    (step : ReadingStep a refused s) (call : refused.call = .checkN key n)
    (reply : refused.reply = .outcome (.error (.exceeded key wait)))
    (range : ∀ r ∈ past ++ [refused], r.InRange) :
    (¬ GrantedLater key n refused.now s → wait.toNat = 2 ^ 64 - 1) ↔
      Honest config n (current config refused.now (a.held key refused.created)) := by
  have pos : 0 < config.refillIntervalMs.toNat := positive
  have refusedRange : refused.InRange := range refused (by simp)
  have left := run_refused pos history step call reply
    (fun r hr => range r (List.mem_append_left _ hr)) refusedRange
  generalize current config refused.now (a.held key refused.created) = c at left ⊢
  by_cases still : config.refillRate = 0
  · have forever : wait.toNat = 2 ^ 64 - 1 := by
      rw [left.waits, retryAfterMs, if_pos still]
      rfl
    exact ⟨fun _ => .inl still, fun _ _ => forever⟩
  · have rated : 0 < config.refillRate.toNat := by
      have some : config.refillRate.toNat ≠ 0 := fun none => still (UInt32.toNat_inj.mp none)
      omega
    have length := left.wait_toNat rated
    have marker : wait.toNat = 2 ^ 64 - 1 ↔
        2 ^ 64 - 1 ≤ needed config n.toNat c * config.refillIntervalMs.toNat := by omega
    rw [grantedLater_iff left rated pos refusedRange.2, marker, Honest]
    tauto

/-- Ten tokens of a bucket that holds three are promised after seven hundred seconds, and never
come. -/
theorem infinite_wait_missing :
    ∃ s, ReadingStep (RateLimiter.new ⟨3, 1, 100000⟩)
        ⟨.checkN "k" 10, 0, 0, .outcome (.error (.exceeded "k" 700000))⟩ s ∧
      ¬ GrantedLater "k" 10 0 s ∧ (700000 : UInt64).toNat ≠ 2 ^ 64 - 1 := by
  have step : ReadingStep (RateLimiter.new ⟨3, 1, 100000⟩)
      ⟨.checkN "k" 10, 0, 0, .outcome (.error (.exceeded "k" 700000))⟩
      ⟨AList.singleton "k" ⟨3, 0⟩, ⟨3, 1, 100000⟩⟩ := by
    decide +kernel
  refine ⟨_, step, ?_, by decide⟩
  have left := run_refused (by decide) (.nil _) step rfl rfl (by simp) (by decide)
  rw [grantedLater_iff left (by decide) (by decide) (by decide)]
  exact fun fits => absurd fits.1 (by decide)

/-- The same request one token at a time: the wait that is reported comes true. -/
theorem infinite_wait_fitting :
    GrantedLater "k" 1 0 ⟨AList.singleton "k" ⟨0, 0⟩, ⟨3, 1, 100000⟩⟩ := by
  have spent : ReadingStep (RateLimiter.new ⟨3, 1, 100000⟩)
      ⟨.checkN "k" 3, 0, 0, .outcome (.ok ())⟩
      ⟨AList.singleton "k" ⟨0, 0⟩, ⟨3, 1, 100000⟩⟩ := by
    decide +kernel
  have refused : ReadingStep ⟨AList.singleton "k" ⟨0, 0⟩, ⟨3, 1, 100000⟩⟩
      ⟨.checkN "k" 1, 0, 0, .outcome (.error (.exceeded "k" 100000))⟩
      ⟨AList.singleton "k" ⟨0, 0⟩, ⟨3, 1, 100000⟩⟩ := by
    decide +kernel
  have marked := (infinite_wait_iff ⟨3, 1, 100000⟩ (by decide) "k" 1
    [⟨.checkN "k" 3, 0, 0, .outcome (.ok ())⟩]
    ⟨.checkN "k" 1, 0, 0, .outcome (.error (.exceeded "k" 100000))⟩ 100000 _ _ (.single spent)
    refused rfl rfl (by decide)).mpr (.inr (.inr (by decide +kernel)))
  by_contra never
  exact absurd (marked never) (by decide)

end BusinessOs.Core.RateLimit.BucketWaits
