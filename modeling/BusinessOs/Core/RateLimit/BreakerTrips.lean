/- Source: rust/src/rate_limit.rs (CircuitBreaker)
   digest: A closed breaker trips at the threshold-th failure in a row, and no counter overflows. -/

import BusinessOs.Core.RateLimit.BreakerHistory
import Mathlib.Data.List.DropRight

set_option autoImplicit false
set_option relaxedAutoImplicit false

namespace BusinessOs.Core.RateLimit.BreakerTrips

open BusinessOs.Lib.Chrono BusinessOs.Lib.Execution
open BusinessOs.Core.RateLimit.Breaker BusinessOs.Core.RateLimit.BreakerHistory

def fails (e : Entry) : Bool :=
  match e.op with
  | .failure _ _ => true
  | _ => false

/-- A reset, a return to `Closed`, or a success while `Closed`. -/
def clears (e : Entry) : Bool :=
  e.op == .reset || e.closes || (e.op == .success && e.before == .closed)

/-- Failures since the latest call that clears; a new breaker has none. -/
def streak (es : List Entry) : ℕ :=
  (es.rtakeWhile fun e => !clears e).countP fails

theorem streak_snoc (es : List Entry) (e : Entry) :
    streak (es ++ [e]) =
      if clears e then 0 else streak es + if fails e then 1 else 0 := by
  unfold streak
  rw [List.rtakeWhile_concat]
  cases clears e
  · simp [List.countP_append]
  · simp

/-- The counter that the call is about to raise has room for one more. -/
def Room (s : CircuitBreaker) : Op → Prop
  | .allow now => ∀ mid, s.checkTimeout now = .ok mid → mid.state = .halfOpen →
      mid.halfOpenCalls < mid.config.halfOpenMaxCalls → mid.halfOpenCalls.toNat + 1 < 2 ^ 32
  | .success => s.state = .halfOpen → s.successCount.toNat + 1 < 2 ^ 32
  | .failure _ _ => s.state = .closed → s.failureCount.toNat + 1 < 2 ^ 32
  | .reset => True

/-- What the counters count, each in the state that reads it. -/
structure Counted (es : List Entry) (s : CircuitBreaker) : Prop where
  failures : s.state = .closed → s.failureCount.toNat = streak es
  below : s.state = .closed → streak es < max 1 s.config.failureThreshold.toNat
  successes : s.state = .halfOpen →
    s.successCount.toNat < max 1 s.config.successThreshold.toNat

theorem new_counted (name : String) (config : CircuitBreakerConfig) :
    Counted [] (CircuitBreaker.new name config) := by
  refine ⟨fun _ => rfl, fun _ => ?_, fun half => ?_⟩
  · rw [streak, List.rtakeWhile_nil, List.countP_nil]
    omega
  · simp [CircuitBreaker.new] at half

/-- A counter below a threshold of 32 bits is raised without a carry. -/
theorem succ_toNat {count threshold : UInt32} (below : count.toNat < max 1 threshold.toNat) :
    (count + 1).toNat = count.toNat + 1 ∧ count.toNat + 1 < 2 ^ 32 := by
  have bound := threshold.toNat_lt
  rw [UInt32.toNat_add, UInt32.toNat_one]
  omega

section Steps

variable {es : List Entry} {s t : CircuitBreaker} {e : Entry}

theorem Counted.room (h : Counted es s) (op : Op) : Room s op := by
  cases op with
  | allow now =>
    intro mid _ _ room
    have small : mid.halfOpenCalls.toNat < mid.config.halfOpenMaxCalls.toNat := room
    have bound := mid.config.halfOpenMaxCalls.toNat_lt
    omega
  | success =>
    intro half
    exact (succ_toNat (h.successes half)).2
  | failure failedAt openedAt =>
    intro closed
    have below := h.below closed
    rw [← h.failures closed] at below
    exact (succ_toNat below).2
  | reset => trivial

/-- On a closed breaker only a success or a reset clears the streak. -/
theorem streak_stays (step : Step s e t) (closed : s.state = .closed)
    (op : e.op ≠ .reset ∧ e.op ≠ .success) :
    streak (es ++ [e]) = streak es + if fails e then 1 else 0 := by
  have kept : clears e = false := by
    simp [clears, Entry.closes, op, step.before, closed]
  simp [streak_snoc, kept]

/-- A failure in `Closed` opens the breaker exactly when it completes the threshold, and else counts
one more. -/
theorem Counted.trips (h : Counted es s) (step : Step s e t) (closed : s.state = .closed)
    {failedAt openedAt : ℤ} (op : e.op = .failure failedAt openedAt) :
    streak (es ++ [e]) = streak es + 1 ∧
      ((t.state = .opened ∧ streak (es ++ [e]) = max 1 s.config.failureThreshold.toNat) ∨
        (t.state = .closed ∧ t.failureCount.toNat = streak (es ++ [e]) ∧
          streak (es ++ [e]) < max 1 s.config.failureThreshold.toNat)) := by
  have more : streak (es ++ [e]) = streak es + 1 := by
    rw [streak_stays step closed ⟨by simp [op], by simp [op]⟩]
    simp [fails, op]
  have below := h.below closed
  have raised : (s.failureCount + 1).toNat = streak es + 1 := by
    rw [← h.failures closed] at below ⊢
    exact (succ_toNat below).1
  refine ⟨more, ?_⟩
  rw [more]
  obtain ⟨rfl, _⟩ := step.failure op
  by_cases enough : s.config.failureThreshold ≤ s.failureCount + 1
  · have reached : s.config.failureThreshold.toNat ≤ (s.failureCount + 1).toNat := enough
    refine .inl ⟨?_, by omega⟩
    simp only [CircuitBreaker.recordFailure, closed, enough, if_true]
  · have missed : ¬ s.config.failureThreshold.toNat ≤ (s.failureCount + 1).toNat := enough
    refine .inr ⟨?_, ?_, by omega⟩
    · simp only [CircuitBreaker.recordFailure, closed, enough, if_false]
    · simp only [CircuitBreaker.recordFailure, closed, enough, if_false]
      exact raised

theorem Counted.of_closed (closed : t.state = .closed) (failures : t.failureCount.toNat = streak es)
    (below : streak es < max 1 t.config.failureThreshold.toNat) : Counted es t :=
  ⟨fun _ => failures, fun _ => below, fun half => absurd (closed.symm.trans half) (by decide)⟩

/-- A call that clears the streak and closes the breaker with a cleared count. -/
theorem Counted.cleared (kept : clears e = true) (closed : t.state = .closed)
    (zero : t.failureCount = 0) : Counted (es ++ [e]) t := by
  have none : streak (es ++ [e]) = 0 := by rw [streak_snoc, if_pos kept]
  refine .of_closed closed ?_ ?_
  · rw [zero, none]
    rfl
  · rw [none]
    omega

theorem Counted.of_opened (opened : t.state = .opened) : Counted es t :=
  ⟨fun closed => absurd (opened.symm.trans closed) (by decide),
    fun closed => absurd (opened.symm.trans closed) (by decide),
    fun half => absurd (opened.symm.trans half) (by decide)⟩

theorem Counted.of_halfOpen (half : t.state = .halfOpen)
    (successes : t.successCount.toNat < max 1 t.config.successThreshold.toNat) : Counted es t :=
  ⟨fun closed => absurd (half.symm.trans closed) (by decide),
    fun closed => absurd (half.symm.trans closed) (by decide), fun _ => successes⟩

theorem Counted.success (h : Counted es s) (step : Step s e t) (op : e.op = .success) :
    Counted (es ++ [e]) t := by
  have before := step.before
  have after := step.after
  obtain ⟨rfl, _⟩ := step.success op
  cases state : s.state with
  | closed =>
    refine .cleared ?_ ?_ ?_
    · simp [clears, op, before, state]
    · simp only [CircuitBreaker.recordSuccess, state]
    · simp only [CircuitBreaker.recordSuccess, state]
  | opened =>
    refine .of_opened ?_
    simp only [CircuitBreaker.recordSuccess, state]
  | halfOpen =>
    have raised := succ_toNat (h.successes state)
    by_cases enough : s.config.successThreshold ≤ s.successCount + 1
    · have next : s.recordSuccess.state = .closed ∧ s.recordSuccess.failureCount = 0 := by
        simp only [CircuitBreaker.recordSuccess, state, enough, if_true, and_self]
      refine .cleared ?_ next.1 next.2
      simp [clears, Entry.closes, before, after, state, next.1]
    · have missed : ¬ s.config.successThreshold.toNat ≤ (s.successCount + 1).toNat := enough
      refine .of_halfOpen ?_ ?_
      · simp only [CircuitBreaker.recordSuccess, state, enough, if_false]
      · simp only [CircuitBreaker.recordSuccess, state, enough, if_false]
        omega

theorem Counted.allow (h : Counted es s) (step : Step s e t) {now : ℤ} (op : e.op = .allow now) :
    Counted (es ++ [e]) t := by
  obtain ⟨mid, checked, cases⟩ := step.allow_cases op
  have same : ∀ closed : s.state = .closed, streak (es ++ [e]) = streak es := by
    intro closed
    rw [streak_stays step closed ⟨by simp [op], by simp [op]⟩]
    simp [fails, op]
  have checkedCounted : Counted (es ++ [e]) mid := by
    rcases checkTimeout_cases checked with rfl | ⟨_, rfl⟩
    · cases state : mid.state with
      | closed =>
        refine .of_closed state ?_ ?_
        · rw [same state, h.failures state]
        · rw [same state]
          exact h.below state
      | opened => exact .of_opened state
      | halfOpen => exact .of_halfOpen state (h.successes state)
    · refine .of_halfOpen rfl ?_
      simp only [CircuitBreaker.probing, UInt32.toNat_zero]
      omega
  rcases cases with ⟨_, rfl⟩ | ⟨half, _, rfl⟩ | ⟨_, rfl, _⟩
  · exact checkedCounted
  · exact .of_halfOpen half (checkedCounted.successes half)
  · exact checkedCounted

theorem Counted.step (h : Counted es s) (step : Step s e t) : Counted (es ++ [e]) t := by
  cases op : e.op with
  | allow now => exact h.allow step op
  | success => exact h.success step op
  | failure failedAt openedAt =>
    cases state : s.state with
    | closed =>
      rcases (h.trips step state op).2 with ⟨opened, _⟩ | ⟨closed, counted, below⟩
      · exact .of_opened opened
      · rw [← step.config] at below
        exact .of_closed closed counted below
    | opened =>
      obtain ⟨rfl, _⟩ := step.failure op
      refine .of_opened ?_
      simp only [CircuitBreaker.recordFailure, state]
    | halfOpen =>
      obtain ⟨rfl, _⟩ := step.failure op
      refine .of_opened ?_
      simp only [CircuitBreaker.recordFailure, state]
  | reset =>
    obtain rfl := step.reset op
    refine .cleared ?_ rfl rfl
    simp [clears, op]

end Steps

theorem Counted.run {s t : CircuitBreaker} {past es : List Entry} (run : Run Step s es t)
    (h : Counted past s) : Counted (past ++ es) t := by
  induction run generalizing past with
  | nil s => rwa [List.append_nil]
  | @cons s u t e es step rest ih =>
    have next := ih (h.step step)
    rwa [List.append_assoc, List.singleton_append] at next

/-- While closed, the failure count is the length of the current streak; a failure then opens the
breaker exactly when it is the threshold-th of the streak (the first, where the threshold is zero);
and no counter is ever raised beyond 32 bits. -/
theorem trip_law (name : String) (config : CircuitBreakerConfig) (es : List Entry)
    (s : CircuitBreaker) (history : Run Step (CircuitBreaker.new name config) es s) :
    (s.state = .closed → s.failureCount.toNat = streak es) ∧
    (∀ e t, Step s e t → s.state = .closed → fails e →
      (t.state = .opened ↔ streak (es ++ [e]) = max 1 config.failureThreshold.toNat)) ∧
    ∀ op, Room s op := by
  have counted : Counted ([] ++ es) s := (new_counted name config).run history
  rw [List.nil_append] at counted
  have same : s.config = config := run_config history
  refine ⟨counted.failures, ?_, counted.room⟩
  intro e t step closed failed
  obtain ⟨failedAt, openedAt, op⟩ : ∃ f o, e.op = .failure f o := by
    cases op : e.op <;> simp_all [fails]
  have cases := (counted.trips step closed op).2
  rw [same] at cases
  rcases cases with ⟨opened, reached⟩ | ⟨stays, _, below⟩
  · exact ⟨fun _ => reached, fun _ => opened⟩
  · constructor
    · intro opened
      exact absurd (stays.symm.trans opened) (by decide)
    · omega

/-- Two failures trip this breaker. After it has opened, let a test call through and closed again,
the first failure is counted as one, and the second trips it. -/
theorem trip_law_after_recovery :
    streak [⟨.failure 0 0, none, .closed, .closed⟩, ⟨.failure 0 0, none, .closed, .opened⟩,
        ⟨.allow 30000000000, some (.ok ()), .opened, .halfOpen⟩,
        ⟨.success, none, .halfOpen, .closed⟩, ⟨.failure 1 1, none, .closed, .closed⟩] = 1 ∧
      streak ([⟨.failure 0 0, none, .closed, .closed⟩, ⟨.failure 0 0, none, .closed, .opened⟩,
        ⟨.allow 30000000000, some (.ok ()), .opened, .halfOpen⟩,
        ⟨.success, none, .halfOpen, .closed⟩, ⟨.failure 1 1, none, .closed, .closed⟩] ++
          [⟨.failure 2 2, none, .closed, .opened⟩]) = 2 := by
  have first : Step (CircuitBreaker.new "db" ⟨2, 1, 30, 1⟩)
      ⟨.failure 0 0, none, .closed, .closed⟩
      ⟨"db", ⟨2, 1, 30, 1⟩, .closed, 1, 0, some 0, none, 0⟩ := by
    decide +kernel
  have second : Step ⟨"db", ⟨2, 1, 30, 1⟩, .closed, 1, 0, some 0, none, 0⟩
      ⟨.failure 0 0, none, .closed, .opened⟩
      ⟨"db", ⟨2, 1, 30, 1⟩, .opened, 2, 0, some 0, some 0, 0⟩ := by
    decide +kernel
  have test : Step ⟨"db", ⟨2, 1, 30, 1⟩, .opened, 2, 0, some 0, some 0, 0⟩
      ⟨.allow 30000000000, some (.ok ()), .opened, .halfOpen⟩
      ⟨"db", ⟨2, 1, 30, 1⟩, .halfOpen, 2, 0, some 0, some 0, 1⟩ := by
    decide +kernel
  have recovers : Step ⟨"db", ⟨2, 1, 30, 1⟩, .halfOpen, 2, 0, some 0, some 0, 1⟩
      ⟨.success, none, .halfOpen, .closed⟩
      ⟨"db", ⟨2, 1, 30, 1⟩, .closed, 0, 0, some 0, some 0, 0⟩ := by
    decide +kernel
  have third : Step ⟨"db", ⟨2, 1, 30, 1⟩, .closed, 0, 0, some 0, some 0, 0⟩
      ⟨.failure 1 1, none, .closed, .closed⟩
      ⟨"db", ⟨2, 1, 30, 1⟩, .closed, 1, 0, some 1, some 0, 0⟩ := by
    decide +kernel
  have last : Step ⟨"db", ⟨2, 1, 30, 1⟩, .closed, 1, 0, some 1, some 0, 0⟩
      ⟨.failure 2 2, none, .closed, .opened⟩
      ⟨"db", ⟨2, 1, 30, 1⟩, .opened, 2, 0, some 2, some 2, 0⟩ := by
    decide +kernel
  obtain ⟨counted, trips, _⟩ := trip_law "db" ⟨2, 1, 30, 1⟩ _ _
    (.cons first (.cons second (.cons test (.cons recovers (.single third)))))
  exact ⟨(counted rfl).symm, (trips _ _ last rfl rfl).mp rfl⟩

end BusinessOs.Core.RateLimit.BreakerTrips
