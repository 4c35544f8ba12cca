/- Source: rust/src/rate_limit.rs (RateLimiter)
   digest: Runs of a token-bucket limiter grant no more than its capacity plus elapsed refills. -/

import BusinessOs.Core.RateLimit.Bucket
import BusinessOs.Lib.Execution

set_option autoImplicit false
set_option relaxedAutoImplicit false

namespace BusinessOs.Core.RateLimit.BucketRuns

open BusinessOs.Lib.Chrono BusinessOs.Lib.Execution
open BusinessOs.Core.RateLimit.Bucket

/-- The public calls that read or change a bucket. -/
inductive Call
  | check (key : String)
  | checkN (key : String) (tokens : UInt32)
  | available (key : String)
  | reset (key : String)
  deriving DecidableEq, Repr

def Call.key : Call → String
  | .check key | .checkN key _ | .available key | .reset key => key

theorem Call.resets_or_keeps (call : Call) :
    call = .reset call.key ∨ ∀ key, call ≠ .reset key := by
  cases call with
  | reset key => exact .inl rfl
  | check key => exact .inr (by simp)
  | checkN key n => exact .inr (by simp)
  | available key => exact .inr (by simp)

inductive Reply
  | outcome (result : Except RateLimitError Unit)
  | count (n : UInt32)
  | done
  deriving DecidableEq

/-- One call with the clock it read and the answer it got. -/
structure Event where
  call : Call
  now : ℤ
  reply : Reply

def perform (self : RateLimiter) (now : ℤ) :
    Call → Except Panic (RateLimiter × Reply)
  | .check key => do
    let (next, result) ← self.check key now
    pure (next, .outcome result)
  | .checkN key tokens => do
    let (next, result) ← self.checkN key tokens now
    pure (next, .outcome result)
  | .available key => do
    let (next, n) ← self.available key now
    pure (next, .count n)
  | .reset key => pure (self.reset key now, .done)

/-- The call returns, with the recorded answer, and leaves the limiter as `t`. -/
def Step (s : RateLimiter) (e : Event) (t : RateLimiter) : Prop :=
  perform s e.now e.call = .ok (t, e.reply)

instance (s : RateLimiter) (e : Event) (t : RateLimiter) : Decidable (Step s e t) :=
  inferInstanceAs (Decidable (perform s e.now e.call = .ok (t, e.reply)))

/-- Tokens that a call for `n` tokens handed out. -/
def taken (n : UInt32) : Except RateLimitError Unit → ℕ
  | .ok _ => n.toNat
  | .error _ => 0

/-- Tokens of `key` that the event handed out. -/
def Event.granted (key : String) (e : Event) : ℕ :=
  match e.call, e.reply with
  | .check k, .outcome result => if k = key then taken 1 result else 0
  | .checkN k n, .outcome result => if k = key then taken n result else 0
  | _, _ => 0

theorem granted_other {key : String} {e : Event} (other : e.call.key ≠ key) :
    e.granted key = 0 := by
  unfold Event.granted
  split <;> simp_all [Call.key]

def granted (key : String) (es : List Event) : ℕ := (es.map (Event.granted key)).sum

/-- The largest of `m` and the clocks that the calls on `key` read. -/
def latest (key : String) : ℤ → List Event → ℤ
  | m, [] => m
  | m, e :: es => latest key (if e.call.key = key then max m e.now else m) es

theorem le_latest (key : String) (m : ℤ) (es : List Event) : m ≤ latest key m es := by
  induction es generalizing m with
  | nil => exact le_rfl
  | cons e es ih =>
    refine le_trans ?_ (ih _)
    split_ifs
    · exact le_max_left _ _
    · exact le_rfl

/-- What a call on a bucket does to it: credit whole intervals up to the clock, then hand out
`g` tokens that are there. -/
def Touched (config : BucketConfig) (now : ℤ) (g : ℕ) (before after : BucketState) : Prop :=
  ∃ k : ℕ, after = (BucketState.credited config k before).spend g ∧
    (g : ℚ) ≤ (BucketState.credited config k before).tokens ∧
    (0 < k → after.lastRefill ≤ now) ∧ now < after.lastRefill + interval config

/-- Every stored bucket holds a whole count within the capacity and a representable instant. -/
structure Sound (limiter : RateLimiter) : Prop where
  whole : ∀ key state, limiter.buckets.lookup key = some state →
    BucketState.Whole limiter.config state
  instant : ∀ key state, limiter.buckets.lookup key = some state →
    Representable state.lastRefill

theorem new_sound (config : BucketConfig) : Sound (RateLimiter.new config) :=
  ⟨by simp [RateLimiter.new], by simp [RateLimiter.new]⟩

/-- A limiter stays sound where the one bucket that changed is whole and at an instant
that chrono can hold. -/
theorem Sound.update {self next : RateLimiter} {key : String} {state : BucketState}
    (h : Sound self) (agrees : self.AgreesOff key next)
    (stored : next.buckets.lookup key = some state)
    (whole : BucketState.Whole self.config state) (instant : Representable state.lastRefill) :
    Sound next := by
  constructor
  · intro other found hfound
    rw [← agrees.config]
    by_cases same : other = key
    · rw [same, stored, Option.some.injEq] at hfound
      exact hfound ▸ whole
    · rw [← agrees.lookup other same] at hfound
      exact h.whole other found hfound
  · intro other found hfound
    by_cases same : other = key
    · rw [same, stored, Option.some.injEq] at hfound
      exact hfound ▸ instant
    · rw [← agrees.lookup other same] at hfound
      exact h.instant other found hfound

theorem Sound.held_whole {self : RateLimiter} (h : Sound self) (key : String)
    (now : ℤ) : BucketState.Whole self.config (self.held key now) := by
  unfold RateLimiter.held
  cases found : self.buckets.lookup key with
  | none => exact full_whole _ _
  | some state => exact h.whole key state found

theorem Sound.held_instant {self : RateLimiter} (h : Sound self) (key : String)
    {now : ℤ} (hn : Representable now) : Representable (self.held key now).lastRefill := by
  unfold RateLimiter.held
  cases found : self.buckets.lookup key with
  | none => exact hn
  | some state => exact h.instant key state found

theorem Touched.whole {config : BucketConfig} {now : ℤ} {g : ℕ} {before after : BucketState}
    (h : Touched config now g before after) (whole : BucketState.Whole config before) :
    BucketState.Whole config after := by
  obtain ⟨k, rfl, enough, _, _⟩ := h
  exact spend_whole (credited_whole k whole) enough

/-- Handed out and stored together stay within the capacity. -/
theorem Touched.spent_le {config : BucketConfig} {now : ℤ} {g : ℕ} {before after : BucketState}
    (h : Touched config now g before after) (whole : BucketState.Whole config before) :
    (g : ℚ) + after.tokens ≤ config.maxTokens.toNat := by
  obtain ⟨k, rfl, _, _, _⟩ := h
  obtain ⟨m, tokens, bound⟩ := credited_whole k whole
  have : (m : ℚ) ≤ config.maxTokens.toNat := by exact_mod_cast bound
  simp only [BucketState.spend, tokens]
  linarith

theorem Touched.instant {config : BucketConfig} {now : ℤ} {g : ℕ} {before after : BucketState}
    (h : Touched config now g before after) (hb : Representable before.lastRefill)
    (hn : Representable now) : Representable after.lastRefill := by
  obtain ⟨k, rfl, _, lands, _⟩ := h
  have moved := credited_lastRefill config before k
  rcases Nat.eq_zero_or_pos k with rfl | kpos
  · simpa only [credited_zero, BucketState.spend] using hb
  · refine hb.between hn ?_ (lands kpos)
    have : 0 ≤ k * interval config := by
      unfold interval
      positivity
    simp only [BucketState.spend, moved]
    omega

section Calls

variable {self : RateLimiter} {now : ℤ}
  (positive : 0 < self.config.refillIntervalMs.toNat) (sound : Sound self)
  (hn : Representable now)

include positive sound hn

/-- Refilling touches the one bucket and hands out nothing. -/
theorem refilled_spec (key : String) :
    ∃ next state, self.refilled key now = .ok (next, state) ∧
      next.buckets.lookup key = some state ∧ self.AgreesOff key next ∧
      Touched self.config now 0 (self.held key now) state ∧
      BucketState.Whole self.config state := by
  obtain ⟨k, result, lands, soon⟩ := refill_spec positive hn (sound.held_instant key hn)
  obtain ⟨next, call, stored, agrees⟩ := refilled_ok result
  have whole := credited_whole k (sound.held_whole key now)
  refine ⟨next, _, call, stored, agrees, ⟨k, (spend_zero _).symm, ?_, lands, soon⟩, whole⟩
  obtain ⟨m, tokens, _⟩ := whole
  rw [tokens]
  positivity

theorem checkN_spec (key : String) (n : UInt32) :
    ∃ next result state, self.checkN key n now = .ok (next, result) ∧
      next.buckets.lookup key = some state ∧ self.AgreesOff key next ∧
      Touched self.config now (taken n result) (self.held key now) state := by
  obtain ⟨next, state, call, stored, agrees, touched, whole⟩ :=
    refilled_spec positive sound hn key
  by_cases enough : n ≤ floatAsU32 ⌊state.tokens⌋
  · refine ⟨{ next with buckets := next.buckets.insert key (state.spend n.toNat) }, .ok (),
      state.spend n.toNat, ?_, AList.lookup_insert _, agrees.trans (agreesOff_insert _ _ _), ?_⟩
    · simp only [RateLimiter.checkN, call, ok_bind, enough, if_true, pure_eq_ok]
    · obtain ⟨k, result, _, lands, soon⟩ := touched
      rw [spend_zero] at result
      subst result
      exact ⟨k, rfl, tokens_of_available whole enough, lands, soon⟩
  · refine ⟨next, .error (.exceeded key (retryAfterMs next.config n state.tokens)), state, ?_,
      stored, agrees, touched⟩
    simp only [RateLimiter.checkN, call, ok_bind, enough, if_false, pure_eq_ok]

/-- Every call but `reset` returns and touches its own bucket only. -/
theorem perform_spec (call : Call) (keeps : ∀ key, call ≠ .reset key) :
    ∃ next reply state, perform self now call = .ok (next, reply) ∧
      next.buckets.lookup call.key = some state ∧ self.AgreesOff call.key next ∧
      Touched self.config now (Event.granted call.key ⟨call, now, reply⟩)
        (self.held call.key now) state := by
  cases call with
  | check key =>
    obtain ⟨next, result, state, returns, stored, agrees, touched⟩ :=
      checkN_spec positive sound hn key 1
    refine ⟨next, .outcome result, state, ?_, stored, agrees, ?_⟩
    · simp only [perform, RateLimiter.check, returns, ok_bind, pure_eq_ok]
    · simpa only [Event.granted, Call.key, if_true] using touched
  | checkN key n =>
    obtain ⟨next, result, state, returns, stored, agrees, touched⟩ :=
      checkN_spec positive sound hn key n
    refine ⟨next, .outcome result, state, ?_, stored, agrees, ?_⟩
    · simp only [perform, returns, ok_bind, pure_eq_ok]
    · simpa only [Event.granted, Call.key, if_true] using touched
  | available key =>
    obtain ⟨next, state, returns, stored, agrees, touched, _⟩ :=
      refilled_spec positive sound hn key
    refine ⟨next, .count (floatAsU32 ⌊state.tokens⌋), state, ?_, stored, agrees, ?_⟩
    · simp only [perform, RateLimiter.available, returns, ok_bind, pure_eq_ok]
    · simpa only [Event.granted, Call.key] using touched
  | reset key => exact absurd rfl (keeps key)

end Calls

theorem reset_spec (self : RateLimiter) (key : String) (now : ℤ) :
    (self.reset key now).buckets.lookup key = some (.full self.config now) ∧
      self.AgreesOff key (self.reset key now) :=
  ⟨AList.lookup_insert _, agreesOff_insert _ _ _⟩

/-- A step other than a reset, read back from the call it records. -/
theorem Step.touched {s t : RateLimiter} {e : Event} (step : Step s e t)
    (positive : 0 < s.config.refillIntervalMs.toNat) (sound : Sound s)
    (hn : Representable e.now) (keeps : ∀ key, e.call ≠ .reset key) :
    ∃ state, t.buckets.lookup e.call.key = some state ∧ s.AgreesOff e.call.key t ∧
      Touched s.config e.now (Event.granted e.call.key e) (s.held e.call.key e.now) state := by
  obtain ⟨next, reply, state, returns, stored, agrees, touched⟩ :=
    perform_spec positive sound hn e.call keeps
  obtain ⟨rfl, rfl⟩ : next = t ∧ reply = e.reply := by
    simpa only [Except.ok.injEq, Prod.mk.injEq] using returns.symm.trans step
  exact ⟨state, stored, agrees, touched⟩

theorem Step.reset {s t : RateLimiter} {e : Event} (step : Step s e t) {key : String}
    (resets : e.call = .reset key) :
    t.buckets.lookup key = some (.full s.config e.now) ∧ s.AgreesOff key t := by
  unfold Step at step
  simp only [resets, perform, pure_eq_ok, Except.ok.injEq, Prod.mk.injEq] at step
  rw [← step.1]
  exact reset_spec s key e.now

/-- No call changes the configuration, and every call keeps other keys' buckets. -/
theorem Step.agreesOff {s t : RateLimiter} {e : Event} (step : Step s e t)
    (positive : 0 < s.config.refillIntervalMs.toNat) (sound : Sound s)
    (hn : Representable e.now) : s.AgreesOff e.call.key t := by
  rcases e.call.resets_or_keeps with resets | keeps
  · exact (step.reset resets).2
  · obtain ⟨_, _, agrees, _⟩ := step.touched positive sound hn keeps
    exact agrees

theorem Step.sound {s t : RateLimiter} {e : Event} (step : Step s e t)
    (positive : 0 < s.config.refillIntervalMs.toNat) (sound : Sound s)
    (hn : Representable e.now) : Sound t := by
  rcases e.call.resets_or_keeps with resets | keeps
  · obtain ⟨stored, agrees⟩ := step.reset resets
    exact sound.update agrees stored (full_whole s.config e.now) hn
  · obtain ⟨state, stored, agrees, touched⟩ := step.touched positive sound hn keeps
    exact sound.update agrees stored (touched.whole (sound.held_whole _ _))
      (touched.instant (sound.held_instant _ hn) hn)

/-- The configuration and the soundness of the buckets along a run. -/
theorem run_sound {s t : RateLimiter} {es : List Event} (run : Run Step s es t)
    (positive : 0 < s.config.refillIntervalMs.toNat) (sound : Sound s)
    (clocks : ∀ e ∈ es, Representable e.now) : t.config = s.config ∧ Sound t := by
  refine run.invariant_mem (I := fun r => r.config = s.config ∧ Sound r) ?_ ⟨rfl, sound⟩
  intro a e b member ⟨config, ha⟩ step
  have apos : 0 < a.config.refillIntervalMs.toNat := config ▸ positive
  exact ⟨(step.agreesOff apos ha (clocks e member)).config.symm.trans config,
    step.sound apos ha (clocks e member)⟩

/-- `g` granted tokens and the stored ones are paid for by `k` credited intervals, which fit between
the refill instant at the start and the clock `m`. -/
structure Paid (config : BucketConfig) (g : ℕ) (before after : BucketState) (k : ℕ) (m : ℤ) :
    Prop where
  tokens : (g : ℚ) + after.tokens ≤ before.tokens + k * config.refillRate.toNat
  moved : after.lastRefill = before.lastRefill + k * interval config
  late : 0 < k → after.lastRefill ≤ m

theorem Paid.refl (config : BucketConfig) (state : BucketState) (m : ℤ) :
    Paid config 0 state state 0 m :=
  ⟨by simp, by simp, by omega⟩

theorem Paid.trans {config : BucketConfig} {g h k l : ℕ} {m n : ℤ} {a b c : BucketState}
    (first : Paid config g a b k m) (second : Paid config h b c l n) (order : m ≤ n) :
    Paid config (g + h) a c (k + l) n := by
  have paid := first.tokens
  have more := second.tokens
  refine ⟨?_, ?_, fun _ => ?_⟩
  · rw [Nat.cast_add, Nat.cast_add]
    linarith
  · rw [second.moved, first.moved, Nat.cast_add]
    ring
  · rcases Nat.eq_zero_or_pos l with rfl | pos
    · have stayed : c.lastRefill = b.lastRefill := by simpa using second.moved
      have early := first.late (by omega)
      omega
    · exact second.late pos

theorem Touched.paid {config : BucketConfig} {now : ℤ} {g : ℕ} {before after : BucketState}
    (h : Touched config now g before after) : ∃ k, Paid config g before after k now := by
  obtain ⟨k, rfl, _, lands, _⟩ := h
  have credit := credited_tokens_le config before k
  refine ⟨k, ?_, credited_lastRefill config before k, lands⟩
  rw [BucketState.spend]
  linarith

/-- Along a run without resets, what is granted and stored is paid for. -/
theorem run_paid {key : String} {s t : RateLimiter} {es : List Event} (run : Run Step s es t)
    (positive : 0 < s.config.refillIntervalMs.toNat) (sound : Sound s)
    (clocks : ∀ e ∈ es, Representable e.now) (keeps : ∀ e ∈ es, e.call ≠ .reset key)
    {start : BucketState} (stored : s.buckets.lookup key = some start) (m : ℤ) :
    ∃ state k, t.buckets.lookup key = some state ∧
      Paid s.config (granted key es) start state k (latest key m es) := by
  induction run generalizing start m with
  | nil s => exact ⟨start, 0, stored, .refl s.config start m⟩
  | @cons s r t e es step rest ih =>
    have hn := clocks e List.mem_cons_self
    have agrees := step.agreesOff positive sound hn
    have later (middle : BucketState) (m : ℤ) (found : r.buckets.lookup key = some middle) :
        ∃ state k, t.buckets.lookup key = some state ∧
          Paid s.config (granted key es) middle state k (latest key m es) := by
      rw [agrees.config]
      exact ih (agrees.config ▸ positive) (step.sound positive sound hn)
        (fun x hx => clocks x (List.mem_cons_of_mem e hx))
        (fun x hx => keeps x (List.mem_cons_of_mem e hx)) found m
    by_cases own : e.call.key = key
    · have noReset : ∀ k, e.call ≠ .reset k :=
        e.call.resets_or_keeps.resolve_left (own ▸ keeps e List.mem_cons_self)
      obtain ⟨middle, found, _, touched⟩ := step.touched positive sound hn noReset
      have held : s.held key e.now = start := by
        simp [RateLimiter.held, stored]
      rw [own] at found touched
      rw [held] at touched
      obtain ⟨k, now⟩ := touched.paid
      obtain ⟨state, l, last, rest⟩ := later middle (max m e.now) found
      have order : e.now ≤ latest key (max m e.now) es :=
        (le_max_right m e.now).trans (le_latest key _ es)
      refine ⟨state, k + l, last, ?_⟩
      rw [latest, if_pos own]
      exact now.trans rest order
    · have kept : r.buckets.lookup key = some start := by
        rw [← agrees.lookup key (Ne.symm own), stored]
      have nothing := granted_other own
      obtain ⟨state, k, last, rest⟩ := later start m kept
      refine ⟨state, k, last, ?_⟩
      rw [latest, if_neg own, granted, List.map_cons, List.sum_cons, nothing, Nat.zero_add]
      exact rest

/-- Credited intervals that fit before `last` number at most one more than the whole ones
between the first call and `last`. -/
theorem intervals_le {width first origin last : ℤ} {k : ℕ} (pos : 0 < width)
    (soon : first < origin + width) (order : first ≤ last)
    (fits : 0 < k → origin + k * width ≤ last) :
    (k : ℤ) ≤ (last - first) / width + 1 := by
  rcases Nat.eq_zero_or_pos k with rfl | kpos
  · have : 0 ≤ (last - first) / width := Int.ediv_nonneg (by omega) pos.le
    omega
  · have reach := fits kpos
    have : (k : ℤ) - 1 ≤ (last - first) / width := by
      rw [Int.le_ediv_iff_mul_le pos]
      have expand : ((k : ℤ) - 1) * width = k * width - width := by ring
      omega
    omega

/-- From one call on `key` to any later one, in a limiter that is already running. -/
theorem granted_slice {key : String} {s t : RateLimiter} {first : Event} {rest : List Event}
    (run : Run Step s (first :: rest) t) (positive : 0 < s.config.refillIntervalMs.toNat)
    (sound : Sound s) (clocks : ∀ e ∈ first :: rest, Representable e.now)
    (own : first.call.key = key) (keeps : ∀ e ∈ first :: rest, e.call ≠ .reset key) :
    (granted key (first :: rest) : ℤ) ≤ s.config.maxTokens.toNat + s.config.refillRate.toNat *
      ((latest key first.now rest - first.now) / interval s.config + 1) := by
  subst own
  have hn := clocks first List.mem_cons_self
  have clocksTail : ∀ e ∈ rest, Representable e.now :=
    fun e he => clocks e (List.mem_cons_of_mem _ he)
  have noReset : ∀ k, first.call ≠ .reset k :=
    first.call.resets_or_keeps.resolve_left (keeps first List.mem_cons_self)
  cases run with
  | @cons _ r _ _ _ step tail =>
    obtain ⟨state, found, agrees, touched⟩ := step.touched positive sound hn noReset
    have soundR := step.sound positive sound hn
    have positiveR : 0 < r.config.refillIntervalMs.toNat := agrees.config ▸ positive
    obtain ⟨final, k, last, later⟩ := run_paid tail positiveR soundR clocksTail
      (fun e he => keeps e (List.mem_cons_of_mem _ he)) found first.now
    rw [← agrees.config] at later
    have paid := later.tokens
    -- the first call leaves at most the capacity, handed out or stored
    have opening := touched.spent_le (sound.held_whole _ _)
    have closing : 0 ≤ final.tokens := by
      obtain ⟨n, tokens, _⟩ := (run_sound tail positiveR soundR clocksTail).2.whole _ _ last
      rw [tokens]
      positivity
    have credits : (k : ℤ) ≤
        (latest first.call.key first.now rest - first.now) / interval s.config + 1 := by
      obtain ⟨_, _, _, _, soon⟩ := touched
      refine intervals_le ?_ soon (le_latest _ _ _) fun kpos => later.moved ▸ later.late kpos
      unfold interval
      positivity
    have total : (granted first.call.key (first :: rest) : ℚ) ≤
        s.config.maxTokens.toNat + s.config.refillRate.toNat * k := by
      simp only [granted, List.map_cons, List.sum_cons] at paid ⊢
      rw [Nat.cast_add]
      linarith
    calc (granted first.call.key (first :: rest) : ℤ)
        ≤ s.config.maxTokens.toNat + s.config.refillRate.toNat * k := by exact_mod_cast total
      _ ≤ s.config.maxTokens.toNat + s.config.refillRate.toNat *
          ((latest first.call.key first.now rest - first.now) / interval s.config + 1) := by
        gcongr

/-- The token-bucket rate bound: what any slice of calls on `key` is granted, and the count a
reachable bucket stores. -/
theorem rate_bound (config : BucketConfig) (positive : 0 < config.refillIntervalMs)
    (key : String) :
    (∀ (before rest : List Event) (first : Event) (s t : RateLimiter),
      Run Step (RateLimiter.new config) before s → Run Step s (first :: rest) t →
      (∀ e ∈ before ++ first :: rest, Representable e.now) →
      first.call.key = key → (∀ e ∈ first :: rest, e.call ≠ .reset key) →
      (granted key (first :: rest) : ℤ) ≤ config.maxTokens.toNat + config.refillRate.toNat *
        ((latest key first.now rest - first.now) / interval config + 1)) ∧
    (∀ (es : List Event) (t : RateLimiter) (state : BucketState),
      Run Step (RateLimiter.new config) es t → (∀ e ∈ es, Representable e.now) →
      t.buckets.lookup key = some state →
      ∃ n : ℕ, state.tokens = n ∧ n ≤ config.maxTokens.toNat) := by
  have pos : 0 < (RateLimiter.new config).config.refillIntervalMs.toNat := positive
  constructor
  · intro before rest first s t past run clocks own keeps
    obtain ⟨same, sound⟩ := run_sound past pos (new_sound config)
      fun e he => clocks e (List.mem_append_left _ he)
    have slice := granted_slice run (same ▸ pos) sound
      (fun e he => clocks e (List.mem_append_right _ he)) own keeps
    rwa [same] at slice
  · intro es t state run clocks found
    obtain ⟨same, sound⟩ := run_sound run pos (new_sound config) clocks
    obtain ⟨n, tokens, bound⟩ := sound.whole key state found
    exact ⟨n, tokens, by rwa [same] at bound⟩

/-- Two tokens, then one more each second: the clock steps back once, and the call it stops is
refused. -/
theorem rate_bound_backward_clock :
    (granted "k" [⟨.check "k", 1500000000, .outcome (.ok ())⟩,
        ⟨.check "k", 1200000000, .outcome (.error (.exceeded "k" 1000))⟩,
        ⟨.check "k", 2000000000, .outcome (.ok ())⟩] : ℤ) ≤
      2 + 1 * ((2000000000 - 1500000000) / 1000000000 + 1) ∧
      ∃ n : ℕ, (0 : ℚ) = n ∧ n ≤ 2 := by
  have opening : Step (RateLimiter.new ⟨2, 1, 1000⟩)
      ⟨.checkN "k" 2, 0, .outcome (.ok ())⟩ ⟨AList.singleton "k" ⟨0, 0⟩, ⟨2, 1, 1000⟩⟩ := by
    decide +kernel
  have first : Step ⟨AList.singleton "k" ⟨0, 0⟩, ⟨2, 1, 1000⟩⟩
      ⟨.check "k", 1500000000, .outcome (.ok ())⟩
      ⟨AList.singleton "k" ⟨0, 1000000000⟩, ⟨2, 1, 1000⟩⟩ := by
    decide +kernel
  have back : Step ⟨AList.singleton "k" ⟨0, 1000000000⟩, ⟨2, 1, 1000⟩⟩
      ⟨.check "k", 1200000000, .outcome (.error (.exceeded "k" 1000))⟩
      ⟨AList.singleton "k" ⟨0, 1000000000⟩, ⟨2, 1, 1000⟩⟩ := by
    decide +kernel
  have last : Step ⟨AList.singleton "k" ⟨0, 1000000000⟩, ⟨2, 1, 1000⟩⟩
      ⟨.check "k", 2000000000, .outcome (.ok ())⟩
      ⟨AList.singleton "k" ⟨0, 2000000000⟩, ⟨2, 1, 1000⟩⟩ := by
    decide +kernel
  have slice := Run.cons first (.cons back (.single last))
  obtain ⟨bound, whole⟩ := rate_bound ⟨2, 1, 1000⟩ (by decide) "k"
  exact ⟨bound _ _ _ _ _ (.single opening) slice (by decide) rfl (by simp),
    whole _ _ ⟨0, 2000000000⟩ ((Run.single opening).append slice) (by decide) (by decide)⟩

end BusinessOs.Core.RateLimit.BucketRuns
