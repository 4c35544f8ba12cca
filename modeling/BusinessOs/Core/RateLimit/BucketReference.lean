/- Source: rust/src/rate_limit.rs (RateLimiter)
   digest: The lazy refill keeps pace with a reference bucket that ticks at every interval. -/

import BusinessOs.Core.RateLimit.BucketReadings

set_option autoImplicit false
set_option relaxedAutoImplicit false

namespace BusinessOs.Core.RateLimit.BucketReference

open BusinessOs.Lib.CappedTicks BusinessOs.Lib.Chrono BusinessOs.Lib.Execution
open BusinessOs.Core.RateLimit.Bucket BusinessOs.Core.RateLimit.BucketRuns
open BusinessOs.Core.RateLimit.BucketReadings

/-! ### The reference bucket

    It ticks on its own: at `origin + m * interval` for every `m ≥ 1`, one capped addition each. -/

def fullAt (config : BucketConfig) (t0 : ℤ) : Ticking ℚ := ⟨t0, 0, config.maxTokens.toNat⟩

/-- The reference bucket at `t`, with every tick up to and including `t`. -/
def eager (config : BucketConfig) (t : ℤ) (b : Ticking ℚ) : Ticking ℚ :=
  b.advance config.refillRate.toNat config.maxTokens.toNat (interval config) t

/-- The reference bucket that a call finds: its creation comes before the call's own clock. -/
def found (config : BucketConfig) (b : Option (Ticking ℚ)) (r : Reading) : Ticking ℚ :=
  eager config r.now (b.getD (fullAt config r.created))

/-- A call for `n` tokens takes them where the reference bucket holds them. -/
def grant (n : ℕ) (b : Ticking ℚ) : Ticking ℚ :=
  if (n : ℚ) ≤ b.count then { b with count := b.count - n } else b

def referenceStep (config : BucketConfig) (key : String) (b : Option (Ticking ℚ)) (r : Reading) :
    Option (Ticking ℚ) :=
  if r.call.key = key then
    match r.call with
    | .reset _ => some (fullAt config r.now)
    | call => some (grant (asked call) (found config b r))
  else b

/-- The reference bucket of `key` after these calls; before the first one on `key` there is none. -/
def reference (config : BucketConfig) (key : String) (rs : List Reading) : Option (Ticking ℚ) :=
  rs.foldl (referenceStep config key) none

theorem referenceStep_other {config : BucketConfig} {key : String} {r : Reading}
    (other : r.call.key ≠ key) (b : Option (Ticking ℚ)) : referenceStep config key b r = b :=
  if_neg other

theorem referenceStep_reset (config : BucketConfig) {key : String} {r : Reading}
    (resets : r.call = .reset key) (b : Option (Ticking ℚ)) :
    referenceStep config key b r = some (fullAt config r.now) := by
  simp only [referenceStep, resets, Call.key, if_true]

theorem referenceStep_call (config : BucketConfig) {key : String} {r : Reading}
    (own : r.call.key = key) (keeps : ∀ k, r.call ≠ .reset k) (b : Option (Ticking ℚ)) :
    referenceStep config key b r = some (grant (asked r.call) (found config b r)) := by
  rw [referenceStep, if_pos own]
  cases call : r.call with
  | reset k => exact absurd call (keeps k)
  | check k => rfl
  | checkN k n => rfl
  | available k => rfl

theorem referenceStep_some {config : BucketConfig} {key : String} {r : Reading}
    (own : r.call.key = key) (b : Option (Ticking ℚ)) :
    ∃ e, referenceStep config key b r = some e := by
  unfold referenceStep
  rw [if_pos own]
  cases r.call <;> exact ⟨_, rfl⟩

/-! ### Simulation -/

/-- The stored bucket holds what the reference holds, and was refilled at its latest tick. -/
structure Tracks (config : BucketConfig) (state : BucketState) (b : Ticking ℚ) : Prop where
  tokens : state.tokens = b.count
  lastRefill : state.lastRefill = b.origin + b.ticks * interval config

theorem full_tracks (config : BucketConfig) (t0 : ℤ) :
    Tracks config (.full config t0) (fullAt config t0) :=
  ⟨rfl, by simp [fullAt, BucketState.full]⟩

/-- One batch of intervals under a single cap is as many ticks, each with its own. -/
theorem Tracks.current {config : BucketConfig} {state : BucketState} {b : Ticking ℚ}
    (h : Tracks config state b) (positive : 0 < config.refillIntervalMs.toNat)
    (whole : BucketState.Whole config state) (t : ℤ) :
    Tracks config (current config t state) (eager config t b) := by
  have due : ticksBy state.lastRefill (interval config) t =
      ticksBy b.origin (interval config) t - b.ticks := by
    rw [h.lastRefill, ticksBy_shift (interval_pos positive)]
  constructor
  · rw [BucketReadings.current, credited_ticks whole, due, h.tokens, eager, Ticking.advance]
  · rw [current_lastRefill, due, h.lastRefill, eager, Ticking.advance, Nat.cast_add]
    ring

theorem Tracks.serve {config : BucketConfig} {state : BucketState} {b : Ticking ℚ}
    (h : Tracks config state b) (n : ℕ) : Tracks config (serve n state) (grant n b) := by
  unfold BucketReadings.serve grant
  rw [h.tokens]
  split_ifs
  · exact ⟨by rw [BucketState.spend, h.tokens], h.lastRefill⟩
  · exact h

/-- The bucket of `key` and its reference are both missing, or the one tracks the other. -/
def Follows (config : BucketConfig) (key : String) (s : RateLimiter) (b : Option (Ticking ℚ)) :
    Prop :=
  Option.Rel (Tracks config) (s.buckets.lookup key) b

theorem Follows.held {config : BucketConfig} {key : String} {s : RateLimiter}
    {b : Option (Ticking ℚ)} (h : Follows config key s b) (same : s.config = config)
    (created : ℤ) : Tracks config (s.held key created) (b.getD (fullAt config created)) := by
  unfold Follows at h
  unfold RateLimiter.held
  generalize s.buckets.lookup key = stored at h ⊢
  cases h with
  | none => exact same ▸ full_tracks config created
  | some tracks => exact tracks

theorem ReadingStep.follows {config : BucketConfig} {key : String} {s t : RateLimiter}
    {r : Reading} {b : Option (Ticking ℚ)} (step : ReadingStep s r t)
    (h : Follows config key s b) (same : s.config = config)
    (positive : 0 < config.refillIntervalMs.toNat) (sound : Sound s) (range : r.InRange) :
    Follows config key t (referenceStep config key b r) := by
  subst same
  by_cases own : r.call.key = key
  · subst own
    rcases r.call.resets_or_keeps with resets | keeps
    · rw [Follows, step.reset resets, referenceStep_reset s.config resets]
      exact .some (full_tracks s.config r.now)
    · rw [Follows, (step.current positive sound range keeps).2,
        referenceStep_call s.config rfl keeps]
      have before := h.held rfl r.created
      have whole := sound.held_whole r.call.key r.created
      exact .some ((before.current positive whole r.now).serve (asked r.call))
  · rw [referenceStep_other own, Follows,
      ← (step.agreesOff positive sound range).lookup key (Ne.symm own)]
    exact h

theorem run_follows {config : BucketConfig} {key : String} {s t : RateLimiter}
    {rs : List Reading} {b : Option (Ticking ℚ)} (run : Run ReadingStep s rs t)
    (h : Follows config key s b) (same : s.config = config)
    (positive : 0 < config.refillIntervalMs.toNat) (sound : Sound s)
    (range : ∀ r ∈ rs, r.InRange) :
    Follows config key t (rs.foldl (referenceStep config key) b) := by
  induction run generalizing b with
  | nil s => exact h
  | @cons s u t r rs step rest ih =>
    have first := range r List.mem_cons_self
    have apos : 0 < s.config.refillIntervalMs.toNat := same ▸ positive
    have next := ReadingStep.follows step h same positive sound first
    exact ih next ((step.agreesOff apos sound first).config.symm.trans same)
      (step.sound apos sound first) fun x hx => range x (List.mem_cons_of_mem r hx)

/-! ### The reference is never late -/

theorem grant_ticks (n : ℕ) (b : Ticking ℚ) :
    (grant n b).ticks = b.ticks ∧ (grant n b).origin = b.origin := by
  unfold grant
  split_ifs <;> exact ⟨rfl, rfl⟩

/-- A call on `key` leaves the reference with exactly the ticks that its clock has seen. -/
theorem referenceStep_ticks {config : BucketConfig} {key : String} {r : Reading}
    {b : Option (Ticking ℚ)} {e : Ticking ℚ} {m : ℤ}
    (positive : 0 < config.refillIntervalMs.toNat) (own : r.call.key = key)
    (early : ∀ e, b = some e → e.ticks ≤ ticksBy e.origin (interval config) m)
    (after : m ≤ r.created) (order : r.created ≤ r.now)
    (h : referenceStep config key b r = some e) :
    e.ticks = ticksBy e.origin (interval config) r.now := by
  have pos := interval_pos positive
  rcases r.call.resets_or_keeps with resets | keeps
  · rw [own] at resets
    rw [referenceStep_reset config resets] at h
    obtain rfl := Option.some.inj h
    simp [fullAt, ticksBy]
  · rw [referenceStep_call config own keeps] at h
    obtain rfl := Option.some.inj h
    rw [(grant_ticks _ _).1, (grant_ticks _ _).2]
    have late : (b.getD (fullAt config r.created)).ticks ≤
        ticksBy (b.getD (fullAt config r.created)).origin (interval config) r.now := by
      cases b with
      | none => exact Nat.zero_le _
      | some e => exact (early e rfl).trans (ticksBy_mono pos (after.trans order))
    simp only [found, eager, Ticking.advance]
    omega

theorem reference_ticks {config : BucketConfig} {key : String} {r : Reading}
    (positive : 0 < config.refillIntervalMs.toNat) (own : r.call.key = key) {before : List Reading}
    {b : Option (Ticking ℚ)} {e : Ticking ℚ} {m : ℤ}
    (early : ∀ e, b = some e → e.ticks ≤ ticksBy e.origin (interval config) m)
    (order : InOrder m (before ++ [r]))
    (h : (before ++ [r]).foldl (referenceStep config key) b = some e) :
    e.ticks = ticksBy e.origin (interval config) r.now := by
  induction before generalizing b m with
  | nil => exact referenceStep_ticks positive own early order.1 order.2.1 h
  | cons x before ih =>
    refine ih ?_ order.2.2 h
    intro e he
    by_cases mine : x.call.key = key
    · exact (referenceStep_ticks positive mine early order.1 order.2.1 he).le
    · rw [referenceStep_other mine] at he
      exact (early e he).trans
        (ticksBy_mono (interval_pos positive) (order.1.trans order.2.1))

/-- After every call on `key` the stored count is that of the reference bucket, which has ticked at
every instant up to the call; and a call for `n` tokens is granted exactly when the reference bucket
it finds holds `n`. -/
theorem lazy_refines_eager (config : BucketConfig) (positive : 0 < config.refillIntervalMs)
    (key : String) (start : ℤ) (before : List Reading) (r : Reading) (t : RateLimiter)
    (run : Run ReadingStep (RateLimiter.new config) (before ++ [r]) t)
    (range : ∀ x ∈ before ++ [r], x.InRange) (order : InOrder start (before ++ [r]))
    (own : r.call.key = key) :
    (∃ (state : BucketState) (e : Ticking ℚ), t.buckets.lookup key = some state ∧
      reference config key (before ++ [r]) = some e ∧ state.tokens = e.count ∧
      e.ticks = ticksBy e.origin (interval config) r.now) ∧
    ∀ n, r.call = .checkN key n →
      (r.reply = .outcome (.ok ()) ↔
        (n.toNat : ℚ) ≤ (found config (reference config key before) r).count) := by
  have pos : 0 < config.refillIntervalMs.toNat := positive
  obtain ⟨s, past, last⟩ := run.split
  have pastRange : ∀ x ∈ before, x.InRange := fun x hx => range x (List.mem_append_left _ hx)
  have startFollows : Follows config key (RateLimiter.new config) none := .none
  have middle := run_follows past startFollows rfl pos (new_sound config) pastRange
  obtain ⟨config', sound⟩ := readings_sound past pos (new_sound config) pastRange
  have same : s.config = config := config'
  have finish := run_follows run startFollows rfl pos (new_sound config) range
  constructor
  · obtain ⟨e, there⟩ : ∃ e, reference config key (before ++ [r]) = some e := by
      rw [reference, List.foldl_append, List.foldl_cons, List.foldl_nil]
      exact referenceStep_some own _
    have ticks := reference_ticks pos own (by simp) order there
    rw [Follows, ← reference, there] at finish
    generalize t.buckets.lookup key = stored at finish ⊢
    cases finish with
    | some tracks => exact ⟨_, e, rfl, there, tracks.tokens, ticks⟩
  · intro n call
    have keeps : ∀ k, r.call ≠ .reset k := by simp [call]
    have single : ReadingStep s r t := Run.single_iff.mp last
    have held := middle.held same r.created
    have tracks := held.current pos (same ▸ sound.held_whole key r.created) r.now
    have reply := (single.current (same ▸ pos) sound (range r (by simp)) keeps).1
    rw [own, same, call, answer] at reply
    rw [reply, found, reference, ← tracks.tokens, Reply.outcome.injEq]
    exact verdict_ok_iff

/-- A probe in the middle of an interval does not delay the next tick: two tokens are taken at once,
and two seconds later the reference has ticked twice. -/
theorem lazy_refines_eager_probed :
    ∃ (t : RateLimiter) (state : BucketState) (e : Ticking ℚ),
      t.buckets.lookup "k" = some state ∧ state.tokens = e.count ∧
        e.ticks = ticksBy e.origin (interval ⟨2, 1, 1000⟩) 2000000000 := by
  have opening : ReadingStep (RateLimiter.new ⟨2, 1, 1000⟩)
      ⟨.checkN "k" 2, 0, 0, .outcome (.ok ())⟩
      ⟨AList.singleton "k" ⟨0, 0⟩, ⟨2, 1, 1000⟩⟩ := by
    decide +kernel
  have probe : ReadingStep ⟨AList.singleton "k" ⟨0, 0⟩, ⟨2, 1, 1000⟩⟩
      ⟨.available "k", 1500000000, 1500000000, .count 1⟩
      ⟨AList.singleton "k" ⟨1, 1000000000⟩, ⟨2, 1, 1000⟩⟩ := by
    decide +kernel
  have last : ReadingStep ⟨AList.singleton "k" ⟨1, 1000000000⟩, ⟨2, 1, 1000⟩⟩
      ⟨.checkN "k" 1, 2000000000, 2000000000, .outcome (.ok ())⟩
      ⟨AList.singleton "k" ⟨1, 2000000000⟩, ⟨2, 1, 1000⟩⟩ := by
    decide +kernel
  obtain ⟨state, e, stored, _, tokens, ticks⟩ :=
    (lazy_refines_eager ⟨2, 1, 1000⟩ (by decide) "k" 0
      [⟨.checkN "k" 2, 0, 0, .outcome (.ok ())⟩,
        ⟨.available "k", 1500000000, 1500000000, .count 1⟩]
      ⟨.checkN "k" 1, 2000000000, 2000000000, .outcome (.ok ())⟩
      ⟨AList.singleton "k" ⟨1, 2000000000⟩, ⟨2, 1, 1000⟩⟩
      (.cons opening (.cons probe (.single last))) (by decide) (by decide) rfl).1
  exact ⟨_, state, e, stored, tokens, ticks⟩

end BusinessOs.Core.RateLimit.BucketReference
