/- Source: rust/src/rate_limit.rs (RequestGuard)
   digest: Runs of a guard as runs of its limiter and of each of its breakers, and what they bound
     of the requests that pass both. -/

import BusinessOs.Core.RateLimit.BreakerExposure
import BusinessOs.Core.RateLimit.BucketReadings
import BusinessOs.Core.RateLimit.Guard

set_option autoImplicit false
set_option relaxedAutoImplicit false

namespace BusinessOs.Core.RateLimit.GuardRuns

open BusinessOs.Lib.Chrono BusinessOs.Lib.Execution
open BusinessOs.Core.RateLimit.Bucket BusinessOs.Core.RateLimit.Breaker
open BusinessOs.Core.RateLimit.BreakerHistory (Op Entry)
open BusinessOs.Core.RateLimit.BreakerExposure (Waits Exposed opening_failure timeout)
open BusinessOs.Core.RateLimit.BucketReadings (interval_pos)
open BusinessOs.Core.RateLimit.Guard

/-- The public calls of a guard, with the clocks that they read. -/
inductive Call
  | check (key : String) (circuitName : Option String) (now later : ℤ)
  | register (name : String) (config : CircuitBreakerConfig)
  | success (circuitName : String)
  | failure (circuitName : String) (failedAt openedAt : ℤ)
  deriving DecidableEq

/-- One call and the answer of a `check`. -/
structure Event where
  call : Call
  answer : Option (Except GuardError Unit)
  deriving DecidableEq

def perform (self : RequestGuard) :
    Call → Except Panic (RequestGuard × Option (Except GuardError Unit))
  | .check key circuitName now later => do
    let (self, result) ← self.check key circuitName now later
    pure (self, some result)
  | .register name config => pure (self.registerCircuit name config, none)
  | .success circuitName => pure (self.recordSuccess circuitName, none)
  | .failure circuitName failedAt openedAt =>
    pure (self.recordFailure circuitName failedAt openedAt, none)

/-- The call returns with the recorded answer. -/
def Step (s : RequestGuard) (e : Event) (t : RequestGuard) : Prop :=
  perform s e.call = .ok (t, e.answer)

instance : DecidableEq RequestGuard := fun a b =>
  decidable_of_iff (a.rateLimiter = b.rateLimiter ∧
      a.circuitBreakers.entries = b.circuitBreakers.entries) (by
    cases a
    cases b
    simp [AList.ext_iff])

instance (s : RequestGuard) (e : Event) (t : RequestGuard) : Decidable (Step s e t) :=
  inferInstanceAs (Decidable (perform s e.call = .ok (t, e.answer)))

/-- What the limiter sees of a call. -/
def Event.limiter (e : Event) : Option BucketRuns.Event :=
  match e.call with
  | .check key _ now _ =>
    match e.answer with
    | some (.error (.rateLimit error)) => some ⟨.check key, now, .outcome (.error error)⟩
    | _ => some ⟨.check key, now, .outcome (.ok ())⟩
  | _ => none

/-- What the breaker of a circuit sees of a call: nothing of a request that the limiter refuses. -/
def Event.circuit (name : String) (e : Event) : Option Op :=
  match e.call with
  | .check _ circuitName _ later =>
    match e.answer with
    | some (.error (.rateLimit _)) => none
    | _ => if circuitName = some name then some (.allow later) else none
  | .register _ _ => none
  | .success circuitName => if circuitName = name then some .success else none
  | .failure circuitName failedAt openedAt =>
    if circuitName = name then some (.failure failedAt openedAt) else none

/-- The guard admits a request. -/
def Event.admits (e : Event) : Bool := e.answer = some (.ok ())

/-- The call is a request with the key. -/
def Event.requests (key : String) (e : Event) : Bool :=
  match e.call with
  | .check k _ _ _ => k == key
  | _ => false

/-- The call is a request for the circuit. -/
def Event.names (name : String) (e : Event) : Bool :=
  match e.call with
  | .check _ circuitName _ _ => circuitName == some name
  | _ => false

/-- The call reports an outcome of the circuit. -/
def Event.reports (name : String) (e : Event) : Bool :=
  match e.call with
  | .success circuitName | .failure circuitName _ _ => circuitName == name
  | _ => false

/-- The readings of a breaker's calls do not go back. -/
def Forward : ℤ → List Op → Prop
  | _, [] => True
  | m, op :: ops => op.Forward m ∧ Forward (op.clock m) ops

instance decidableForward : (m : ℤ) → (ops : List Op) → Decidable (Forward m ops)
  | _, [] => inferInstanceAs (Decidable True)
  | m, op :: ops =>
    have := decidableForward (op.clock m) ops
    inferInstanceAs (Decidable (_ ∧ Forward (op.clock m) ops))

section Steps

variable {s t : RequestGuard} {e : Event} {name : String}

/-- A `check` that returns: the limiter has refused, or nothing else was asked, or the breaker has
decided. -/
theorem check_cases {self next : RequestGuard} {key : String} {circuitName : Option String}
    {now later : ℤ} {result : Except GuardError Unit}
    (h : self.check key circuitName now later = .ok (next, result)) :
    ∃ limited, self.rateLimiter.check key now = .ok (next.rateLimiter, limited) ∧
      ((∃ error, limited = .error error ∧ result = .error (.rateLimit error) ∧
          next.circuitBreakers = self.circuitBreakers) ∨
        (limited = .ok () ∧ result = .ok () ∧ next.circuitBreakers = self.circuitBreakers ∧
          ∀ name ∈ circuitName, self.circuitBreakers.lookup name = none) ∨
        (limited = .ok () ∧ ∃ name breaker mid verdict, circuitName = some name ∧
          self.circuitBreakers.lookup name = some breaker ∧
          breaker.allowRequest later = .ok (mid, verdict) ∧
          result = verdict.mapError GuardError.circuit ∧
          next.circuitBreakers = self.circuitBreakers.insert name mid)) := by
  unfold RequestGuard.check at h
  cases limited : self.rateLimiter.check key now with
  | error _ => simp [limited] at h
  | ok pair =>
    obtain ⟨limiter, verdict⟩ := pair
    rw [limited] at h
    cases verdict with
    | error error =>
      simp only [ok_bind, pure_eq_ok, Except.ok.injEq, Prod.mk.injEq] at h
      obtain ⟨rfl, rfl⟩ := h
      exact ⟨_, rfl, .inl ⟨error, rfl, rfl, rfl⟩⟩
    | ok _ =>
      simp only [ok_bind] at h
      split at h
      · rename_i unnamed
        simp only [pure_eq_ok, Except.ok.injEq, Prod.mk.injEq] at h
        obtain ⟨rfl, rfl⟩ := h
        refine ⟨_, rfl, .inr (.inl ⟨rfl, rfl, rfl, ?_⟩)⟩
        intro name member
        simpa [Option.mem_def.mp member] using unnamed
      · rename_i name breaker named
        cases asked : breaker.allowRequest later with
        | error _ => simp [asked] at h
        | ok answer =>
          obtain ⟨mid, verdict⟩ := answer
          simp only [asked, ok_bind, pure_eq_ok, Except.ok.injEq, Prod.mk.injEq] at h
          obtain ⟨rfl, rfl⟩ := h
          simp only [Option.bind_eq_some_iff, Option.map_eq_some_iff] at named
          obtain ⟨own, same, _, found, pair⟩ := named
          obtain ⟨rfl, rfl⟩ := Prod.mk.inj pair
          exact ⟨_, rfl, .inr (.inr ⟨rfl, _, _, mid, verdict, same, found, asked, rfl, rfl⟩)⟩

/-- A `check` step returns the limiter and the answer of a `check`. -/
theorem Step.check {key : String} {circuitName : Option String} {now later : ℤ} (step : Step s e t)
    (call : e.call = .check key circuitName now later) :
    ∃ result, s.check key circuitName now later = .ok (t, result) ∧ e.answer = some result := by
  unfold Step perform at step
  rw [call] at step
  cases asked : s.check key circuitName now later with
  | error _ => simp [asked] at step
  | ok pair =>
    obtain ⟨next, result⟩ := pair
    simp only [asked, ok_bind, pure_eq_ok, Except.ok.injEq, Prod.mk.injEq] at step
    exact ⟨result, by rw [step.1], step.2.symm⟩

/-- The limiter takes the step that it sees, and none where it sees none. -/
theorem Step.limiter (step : Step s e t) :
    Run BucketRuns.Step s.rateLimiter e.limiter.toList t.rateLimiter := by
  cases call : e.call with
  | check key circuitName now later =>
    obtain ⟨result, asked, answer⟩ := step.check call
    obtain ⟨limited, checked, outcome⟩ := check_cases asked
    have seen : e.limiter = some ⟨.check key, now, .outcome limited⟩ := by
      unfold Event.limiter
      rw [call, answer]
      rcases outcome with ⟨error, rfl, rfl, _⟩ | ⟨rfl, rfl, _⟩ |
        ⟨rfl, _, _, _, verdict, _, _, _, rfl, _⟩
      · rfl
      · rfl
      · cases verdict <;> rfl
    rw [seen]
    apply Run.single
    show BucketRuns.perform _ _ _ = _
    simp only [BucketRuns.perform, checked, ok_bind, pure_eq_ok]
  | register name config =>
    have seen : e.limiter = none := by simp [Event.limiter, call]
    have same : t.rateLimiter = s.rateLimiter := by
      simp only [Step, perform, call, pure_eq_ok, Except.ok.injEq, Prod.mk.injEq] at step
      rw [← step.1]
      rfl
    rw [seen, same]
    exact .nil _
  | success circuitName =>
    have seen : e.limiter = none := by simp [Event.limiter, call]
    have same : t.rateLimiter = s.rateLimiter := by
      simp only [Step, perform, call, pure_eq_ok, Except.ok.injEq, Prod.mk.injEq] at step
      rw [← step.1, RequestGuard.recordSuccess]
      split <;> rfl
    rw [seen, same]
    exact .nil _
  | failure circuitName failedAt openedAt =>
    have seen : e.limiter = none := by simp [Event.limiter, call]
    have same : t.rateLimiter = s.rateLimiter := by
      simp only [Step, perform, call, pure_eq_ok, Except.ok.injEq, Prod.mk.injEq] at step
      rw [← step.1, RequestGuard.recordFailure]
      split <;> rfl
    rw [seen, same]
    exact .nil _

theorem run_limiter {es : List Event} (run : Run Step s es t) :
    Run BucketRuns.Step s.rateLimiter (es.filterMap Event.limiter) t.rateLimiter :=
  run.filterMap (f := RequestGuard.rateLimiter) fun _ _ _ step => step.limiter

/-- A call as the breaker of one circuit takes it: the calls it sees, each with its admission. -/
structure Seen (name : String) (before after : CircuitBreaker) (es : List Event)
    (entries : List Entry) : Prop where
  run : Run BreakerHistory.Step before entries after
  ops : entries.map Entry.op = es.filterMap (Event.circuit name)
  /-- The guard's admissions for the circuit are the breaker's. -/
  admits : ∀ later, (∃ e ∈ es, ∃ key now, e.call = .check key (some name) now later ∧
    e.admits = true) → ∃ entry ∈ entries, entry.op = .allow later ∧ entry.admits = true
  count : es.countP (fun e => e.names name && e.admits) = entries.countP Entry.admits

/-- A call that the breaker does not see. -/
theorem Seen.unseen {breaker : CircuitBreaker} (hidden : e.circuit name = none)
    (refused : e.names name = true → e.admits = false) : Seen name breaker breaker [e] [] := by
  refine ⟨.nil _, ?_, ?_, ?_⟩
  · rw [List.filterMap_cons_none hidden]
    rfl
  · rintro later ⟨other, member, key, now, call, admits⟩
    obtain rfl := List.mem_singleton.mp member
    have names : other.names name = true := by simp [Event.names, call]
    rw [refused names] at admits
    cases admits
  · cases names : e.names name with
    | false => simp [names]
    | true => simp [refused names]

/-- A call that the breaker sees. -/
theorem Seen.seen {before after : CircuitBreaker} {op : Op}
    {answer : Option (Except CircuitBreakerError Unit)}
    (performed : BreakerHistory.perform before op = .ok (after, answer))
    (shown : e.circuit name = some op)
    (admits : (e.names name && e.admits) = decide (answer = some (.ok ())))
    (own : ∀ key later now, e.call = .check key (some name) now later → op = .allow later) :
    Seen name before after [e] [⟨op, answer, before.state, after.state⟩] := by
  refine ⟨.single ⟨performed, rfl, rfl⟩, ?_, ?_, ?_⟩
  · rw [List.filterMap_cons_some shown]
    rfl
  · rintro later ⟨other, member, key, now, call, admitted⟩
    obtain rfl := List.mem_singleton.mp member
    have names : other.names name = true := by simp [Event.names, call]
    rw [names, admitted] at admits
    exact ⟨_, List.mem_cons_self, own key later now call, admits.symm⟩
  · rw [List.countP_singleton, List.countP_singleton, admits]
    rfl

theorem Step.circuit {breaker : CircuitBreaker} (step : Step s e t)
    (found : s.circuitBreakers.lookup name = some breaker)
    (kept : ∀ config, e.call ≠ .register name config) :
    ∃ after entries, t.circuitBreakers.lookup name = some after ∧
      Seen name breaker after [e] entries := by
  cases call : e.call with
  | check key circuitName now later =>
    obtain ⟨result, asked, answer⟩ := step.check call
    obtain ⟨limited, _, outcome⟩ := check_cases asked
    rcases outcome with ⟨error, _, rfl, same⟩ | ⟨_, rfl, same, unknown⟩ |
      ⟨_, own, held, mid, verdict, rfl, there, allowed, rfl, changed⟩
    · refine ⟨breaker, [], same ▸ found, .unseen ?_ fun _ => ?_⟩
      · simp [Event.circuit, call, answer]
      · simp [Event.admits, answer]
    · have other : circuitName ≠ some name := by
        intro named
        have missing := unknown name named
        rw [found] at missing
        cases missing
      refine ⟨breaker, [], same ▸ found, .unseen ?_ ?_⟩
      · simp [Event.circuit, call, answer, other]
      · simp [Event.names, call, other]
    · by_cases same : own = name
      · subst same
        obtain rfl : held = breaker := Option.some.inj (there.symm.trans found)
        refine ⟨mid, [⟨.allow later, some verdict, held.state, mid.state⟩], ?_, .seen ?_ ?_ ?_ ?_⟩
        · rw [changed]
          exact AList.lookup_insert _
        · simp only [BreakerHistory.perform, allowed, ok_bind, pure_eq_ok]
        · cases verdict <;> simp [Event.circuit, call, answer, Except.mapError]
        · cases verdict <;> simp [Event.names, Event.admits, call, answer, Except.mapError]
        · intro _ _ _ same
          rw [call] at same
          rw [(Call.check.inj same).2.2.2]
      · refine ⟨breaker, [], ?_, .unseen ?_ ?_⟩
        · rw [changed, AList.lookup_insert_ne (Ne.symm same)]
          exact found
        · cases verdict <;> simp [Event.circuit, call, answer, Except.mapError, same]
        · simp [Event.names, call, same]
  | register own config =>
    have other : own ≠ name := by
      rintro rfl
      exact kept config call
    simp only [Step, perform, call, pure_eq_ok, Except.ok.injEq, Prod.mk.injEq] at step
    refine ⟨breaker, [], ?_, .unseen ?_ ?_⟩
    · rw [← step.1, RequestGuard.registerCircuit, AList.lookup_insert_ne (Ne.symm other)]
      exact found
    · simp [Event.circuit, call]
    · simp [Event.names, call]
  | success own =>
    simp only [Step, perform, call, pure_eq_ok, Except.ok.injEq, Prod.mk.injEq] at step
    by_cases same : own = name
    · subst same
      refine ⟨breaker.recordSuccess, [⟨.success, none, breaker.state, breaker.recordSuccess.state⟩],
        ?_, .seen rfl ?_ ?_ ?_⟩
      · rw [← step.1, RequestGuard.recordSuccess, found]
        exact AList.lookup_insert _
      · simp [Event.circuit, call]
      · simp [Event.names, call]
      · simp [call]
    · refine ⟨breaker, [], ?_, .unseen ?_ ?_⟩
      · rw [← step.1, RequestGuard.recordSuccess]
        split
        · exact found
        · rw [AList.lookup_insert_ne (Ne.symm same)]
          exact found
      · simp [Event.circuit, call, same]
      · simp [Event.names, call]
  | failure own failedAt openedAt =>
    simp only [Step, perform, call, pure_eq_ok, Except.ok.injEq, Prod.mk.injEq] at step
    by_cases same : own = name
    · subst same
      refine ⟨breaker.recordFailure failedAt openedAt, [⟨.failure failedAt openedAt, none,
        breaker.state, (breaker.recordFailure failedAt openedAt).state⟩], ?_, .seen rfl ?_ ?_ ?_⟩
      · rw [← step.1, RequestGuard.recordFailure, found]
        exact AList.lookup_insert _
      · simp [Event.circuit, call]
      · simp [Event.names, call]
      · simp [call]
    · refine ⟨breaker, [], ?_, .unseen ?_ ?_⟩
      · rw [← step.1, RequestGuard.recordFailure]
        split
        · exact found
        · rw [AList.lookup_insert_ne (Ne.symm same)]
          exact found
      · simp [Event.circuit, call, same]
      · simp [Event.names, call]

end Steps

section Bounds

variable {s t u : RequestGuard} {name : String}

/-- The limiter sees the requests, each with its key and its first clock. -/
theorem limiter_call {e : Event} {event : BucketRuns.Event} (seen : e.limiter = some event) :
    ∃ key circuitName now later, e.call = .check key circuitName now later ∧
      event.call = .check key ∧ event.now = now := by
  unfold Event.limiter at seen
  cases call : e.call with
  | check key circuitName now later =>
    simp only [call] at seen
    refine ⟨key, circuitName, now, later, rfl, ?_⟩
    split at seen
    · obtain rfl := Option.some.inj seen
      exact ⟨rfl, rfl⟩
    · obtain rfl := Option.some.inj seen
      exact ⟨rfl, rfl⟩
  | _ => simp [call] at seen

theorem latest_le {key : String} {m last : ℤ} {es : List BucketRuns.Event} (start : m ≤ last)
    (later : ∀ e ∈ es, e.call.key = key → e.now ≤ last) : BucketRuns.latest key m es ≤ last := by
  induction es generalizing m with
  | nil => exact start
  | cons e es ih =>
    apply ih
    · split_ifs with own
      · exact max_le start (later e List.mem_cons_self own)
      · exact start
    · exact fun e member => later e (List.mem_cons_of_mem _ member)

/-- A request that the guard admits has taken a token. -/
theorem admitted_le_granted (key : String) (es : List Event) :
    es.countP (fun e => e.requests key && e.admits) ≤
      BucketRuns.granted key (es.filterMap Event.limiter) := by
  induction es with
  | nil => exact Nat.zero_le _
  | cons e es ih =>
    have one : (if (e.requests key && e.admits) = true then 1 else 0) ≤
        BucketRuns.granted key e.limiter.toList := by
      split_ifs with admitted
      · obtain ⟨requests, admits⟩ := Bool.and_eq_true_iff.mp admitted
        unfold Event.admits at admits
        rw [decide_eq_true_eq] at admits
        cases call : e.call with
        | check own circuitName now later =>
          obtain rfl : own = key := by simpa [Event.requests, call] using requests
          simp [Event.limiter, call, admits, BucketRuns.granted, BucketRuns.Event.granted,
            BucketRuns.taken]
        | _ => simp [Event.requests, call] at requests
      · exact Nat.zero_le _
    rw [List.countP_cons]
    cases seen : e.limiter with
    | none =>
      rw [seen] at one
      have none_ : BucketRuns.granted key (none : Option BucketRuns.Event).toList = 0 := rfl
      rw [List.filterMap_cons_none seen]
      omega
    | some event =>
      rw [seen] at one
      have split : BucketRuns.granted key (event :: es.filterMap Event.limiter) =
          BucketRuns.granted key (some event).toList +
            BucketRuns.granted key (es.filterMap Event.limiter) := by
        simp [BucketRuns.granted]
      rw [List.filterMap_cons_some seen, split]
      omega

/-- A slice of a guard's requests with one key, from its first one at `now` to the time `last`:
however they name circuits and whatever is reported, the guard admits no more of them than the
bucket holds and the elapsed intervals refill. -/
theorem guard_rate_bound (config : BucketConfig) (positive : 0 < config.refillIntervalMs)
    {before rest : List Event} {first : Event} {key : String} {circuitName : Option String}
    {now later last : ℤ} (past : Run Step (RequestGuard.new config) before s)
    (run : Run Step s (first :: rest) t) (call : first.call = .check key circuitName now later)
    (clocks : ∀ e ∈ before ++ first :: rest, ∀ key circuitName now later,
      e.call = .check key circuitName now later → Representable now)
    (until_ : ∀ e ∈ first :: rest, ∀ circuitName now later,
      e.call = .check key circuitName now later → now ≤ last) :
    ((first :: rest).countP (fun e => e.requests key && e.admits) : ℤ) ≤
      config.maxTokens.toNat + config.refillRate.toNat *
        ((last - now) / Bucket.interval config + 1) := by
  have pos : 0 < (RequestGuard.new config).rateLimiter.config.refillIntervalMs.toNat := positive
  have clocked : ∀ es : List Event, (∀ e ∈ es, e ∈ before ++ first :: rest) →
      ∀ event ∈ es.filterMap Event.limiter, Representable event.now := by
    intro es within event member
    obtain ⟨e, inside, seen⟩ := List.mem_filterMap.mp member
    obtain ⟨k, c, n, l, asked, _, rfl⟩ := limiter_call seen
    exact clocks e (within e inside) k c _ l asked
  obtain ⟨same, sound⟩ := BucketRuns.run_sound (run_limiter past) pos (BucketRuns.new_sound config)
    (clocked before fun e member => List.mem_append_left _ member)
  obtain ⟨event, seen, request, clock⟩ :
      ∃ event, first.limiter = some event ∧ event.call = .check key ∧ event.now = now := by
    cases seen : first.limiter with
    | none =>
      unfold Event.limiter at seen
      simp only [call] at seen
      split at seen <;> cases seen
    | some event =>
      obtain ⟨k, c, n, l, asked, own, at_⟩ := limiter_call seen
      rw [call] at asked
      obtain ⟨rfl, _, rfl, _⟩ := Call.check.inj asked
      exact ⟨event, rfl, own, at_⟩
  have slice := run_limiter run
  have readings := clocked (first :: rest) fun e member => List.mem_append_right _ member
  rw [List.filterMap_cons_some seen] at slice readings
  have granted := BucketRuns.granted_slice slice (same ▸ pos) sound readings
    (show event.call.key = key by rw [request]; rfl) (by
      intro other member
      rw [← List.filterMap_cons_some seen] at member
      obtain ⟨e, _, shown⟩ := List.mem_filterMap.mp member
      obtain ⟨k, _, _, _, _, asked, _⟩ := limiter_call shown
      rw [asked]
      exact fun same => by cases same)
  have latest : BucketRuns.latest key event.now (rest.filterMap Event.limiter) ≤ last := by
    apply latest_le
    · rw [clock]
      exact until_ first List.mem_cons_self circuitName now later call
    · intro other member own
      obtain ⟨e, inside, shown⟩ := List.mem_filterMap.mp member
      obtain ⟨k, c, n, l, asked, request, rfl⟩ := limiter_call shown
      obtain rfl : k = key := by rw [request] at own; exact own
      exact until_ e (List.mem_cons_of_mem _ inside) c _ l asked
  have admitted := admitted_le_granted key (first :: rest)
  rw [List.filterMap_cons_some seen] at admitted
  rw [same, clock] at granted
  rw [clock] at latest
  have spacing : 0 < Bucket.interval config := interval_pos positive
  have elapsed := Int.ediv_le_ediv spacing (Int.sub_le_sub_right latest now)
  calc ((first :: rest).countP (fun e => e.requests key && e.admits) : ℤ)
      ≤ (BucketRuns.granted key (event :: rest.filterMap Event.limiter) : ℤ) := by
        exact_mod_cast admitted
    _ ≤ _ := granted
    _ ≤ config.maxTokens.toNat + config.refillRate.toNat *
          ((last - now) / Bucket.interval config + 1) := by
        have rate : (0 : ℤ) ≤ config.refillRate.toNat := Int.natCast_nonneg _
        have more := Int.mul_le_mul_of_nonneg_left (Int.add_le_add_right elapsed 1) rate
        exact Int.add_le_add_left more _


end Bounds

section Sample

def sampleCircuit : CircuitBreakerConfig := ⟨1, 2, 30, 1⟩

/-- A guard with one bucket and one circuit. -/
def sampleGuard (bucket : Option BucketState) (breaker : CircuitBreaker) : RequestGuard where
  rateLimiter := ⟨bucket.elim ∅ fun state => AList.singleton "k" state, ⟨2, 1, 1000⟩⟩
  circuitBreakers := AList.singleton "db" breaker

def sampleOpened : CircuitBreaker := ⟨"db", sampleCircuit, .opened, 1, 0, some 0, some 0, 0⟩

def sampleHalfOpen : CircuitBreaker := ⟨"db", sampleCircuit, .halfOpen, 1, 0, some 0, some 0, 1⟩

/-- The circuit has failed at 0; of three requests for it the second one is its test. -/
def sampleRequests : List Event :=
  [⟨.check "k" (some "db") 10000000000 10000000000,
      some (.error (.circuit (.opened "db" (some 0))))⟩,
    ⟨.check "k" (some "db") 30000000000 30000000000, some (.ok ())⟩,
    ⟨.check "k" (some "db") 31000000000 31000000000,
      some (.error (.circuit (.halfOpenExhausted "db")))⟩]

theorem sampleRequests_run : Run Step (sampleGuard none sampleOpened) sampleRequests
    (sampleGuard (some ⟨1, 31000000000⟩) sampleHalfOpen) := by
  have early : Step (sampleGuard none sampleOpened)
      ⟨.check "k" (some "db") 10000000000 10000000000,
        some (.error (.circuit (.opened "db" (some 0))))⟩
      (sampleGuard (some ⟨1, 10000000000⟩) sampleOpened) := by
    decide +kernel
  have test : Step (sampleGuard (some ⟨1, 10000000000⟩) sampleOpened)
      ⟨.check "k" (some "db") 30000000000 30000000000, some (.ok ())⟩
      (sampleGuard (some ⟨1, 30000000000⟩) sampleHalfOpen) := by
    decide +kernel
  have more : Step (sampleGuard (some ⟨1, 30000000000⟩) sampleHalfOpen)
      ⟨.check "k" (some "db") 31000000000 31000000000,
        some (.error (.circuit (.halfOpenExhausted "db")))⟩
      (sampleGuard (some ⟨1, 31000000000⟩) sampleHalfOpen) := by
    decide +kernel
  exact .cons early (.cons test (.single more))

theorem sampleTrip : Step (sampleGuard none (.new "db" sampleCircuit))
    ⟨.failure "db" 0 0, none⟩ (sampleGuard none sampleOpened) := by
  decide +kernel

theorem guard_rate_bound_sample :
    (sampleRequests.countP (fun e => e.requests "k" && e.admits) : ℤ) ≤
      2 + 1 * ((31000000000 - 10000000000) / 1000000000 + 1) := by
  have registered : Step (RequestGuard.new ⟨2, 1, 1000⟩) ⟨.register "db" sampleCircuit, none⟩
      (sampleGuard none (.new "db" sampleCircuit)) := by
    decide +kernel
  refine guard_rate_bound ⟨2, 1, 1000⟩ (by decide) (.cons registered (.single sampleTrip))
    sampleRequests_run rfl ?_ ?_
  · intro e member key circuitName now later call
    have times : now = 10000000000 ∨ now = 30000000000 ∨ now = 31000000000 := by
      simp only [List.cons_append, List.nil_append, List.mem_cons, List.not_mem_nil,
        or_false] at member
      rcases member with rfl | rfl | rfl | rfl | rfl <;> simp_all
    rcases times with rfl | rfl | rfl <;> decide
  · intro e member circuitName now later call
    simp only [List.mem_cons, List.not_mem_nil, or_false] at member
    rcases member with rfl | rfl | rfl <;> simp only [Call.check.injEq] at call <;> omega

end Sample

end BusinessOs.Core.RateLimit.GuardRuns
