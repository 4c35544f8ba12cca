/- Source: rust/src/rate_limit.rs (CircuitBreaker)
   digest: What an opened breaker lets through: nothing before its timeout, then a few calls. -/

import BusinessOs.Core.RateLimit.BreakerHistory

set_option autoImplicit false
set_option relaxedAutoImplicit false

namespace BusinessOs.Core.RateLimit.BreakerExposure

open BusinessOs.Lib.Chrono BusinessOs.Lib.Execution
open BusinessOs.Core.RateLimit.Breaker BusinessOs.Core.RateLimit.BreakerHistory

/-- The breaker's timeout in nanoseconds. -/
def timeout (config : CircuitBreakerConfig) : ℤ := config.timeoutSecs.toInt * 1000000000

/-- A failure that opens the breaker stamps it. -/
theorem opening_failure {s t : CircuitBreaker} {e : Entry} {failedAt openedAt : ℤ}
    (step : Step s e t) (op : e.op = .failure failedAt openedAt) (opens : e.opens) :
    t.state = .opened ∧ t.openedAt = some openedAt := by
  have before := step.before
  have after := step.after
  obtain ⟨rfl, _⟩ := step.failure op
  simp only [Entry.opens, Bool.and_eq_true, bne_iff_ne, ne_eq, beq_iff_eq, before, after] at opens
  refine ⟨opens.2, ?_⟩
  obtain ⟨notOpened, opened⟩ := opens
  cases state : s.state with
  | opened => exact absurd state notOpened
  | halfOpen => simp only [CircuitBreaker.recordFailure, state]
  | closed =>
    simp only [CircuitBreaker.recordFailure, state] at opened ⊢
    by_cases enough : s.config.failureThreshold ≤ s.failureCount + 1
    · rw [if_pos enough]
    · simp [enough] at opened

/-! ### Before the timeout -/

/-- The breaker opened at `opening` or later and has stayed open, or the clock has already shown
that the timeout has passed since `opening`. -/
def Waits (opening m : ℤ) (s : CircuitBreaker) : Prop :=
  (s.state = .opened ∧ ∃ openedAt, s.openedAt = some openedAt ∧ opening ≤ openedAt) ∨
    opening + timeout s.config ≤ m

section Waits

variable {opening m : ℤ} {s t : CircuitBreaker} {e : Entry}

/-- Late reports change nothing about an open breaker but `last_failure`. -/
theorem report_opened (opened : s.state = .opened) (failedAt openedAt : ℤ) :
    s.recordSuccess = s ∧
      s.recordFailure failedAt openedAt = { s with lastFailure := some failedAt } := by
  constructor
  · simp only [CircuitBreaker.recordSuccess, opened]
  · simp only [CircuitBreaker.recordFailure, opened]

theorem Waits.step (h : Waits opening m s) (step : Step s e t) (order : e.op.Forward m)
    (keeps : e.op ≠ .reset) :
    Waits opening (e.op.clock m) t ∧
      ∀ now, e.op = .allow now → e.admits → opening + timeout s.config ≤ now := by
  have later := order.le
  rcases h with ⟨opened, openedAt, found, after⟩ | passed
  · cases op : e.op with
    | reset => exact absurd op keeps
    | success =>
      obtain ⟨rfl, _⟩ := step.success op
      rw [(report_opened opened 0 0).1]
      exact ⟨.inl ⟨opened, openedAt, found, after⟩, by simp⟩
    | failure failed again =>
      obtain ⟨rfl, _⟩ := step.failure op
      rw [(report_opened opened failed again).2]
      exact ⟨.inl ⟨opened, openedAt, found, after⟩, by simp⟩
    | allow now =>
      obtain ⟨mid, checked, cases⟩ := step.allow_cases op
      rcases checkTimeout_opened opened found checked with ⟨rfl, early⟩ | ⟨rfl, due⟩
      · -- still open: only the refusal is left of the three cases
        rcases cases with ⟨closed, _⟩ | ⟨half, _⟩ | ⟨_, rfl, refused⟩
        · simp [opened] at closed
        · simp [opened] at half
        · exact ⟨.inl ⟨opened, openedAt, found, after⟩, by simp [refused]⟩
      · have passed : opening + timeout s.config ≤ now := by
          unfold timeout
          omega
        refine ⟨.inr ?_, fun other same _ => ?_⟩
        · rw [step.config]
          exact passed
        · obtain rfl := Op.allow.inj same
          exact passed
  · refine ⟨.inr ?_, fun now op _ => ?_⟩
    · rw [step.config]
      exact passed.trans later
    · rw [op] at later
      exact passed.trans later

theorem Waits.run {es : List Entry} (run : Run Step s es t) (h : Waits opening m s)
    (order : InOrder m es) (keeps : ∀ e ∈ es, e.op ≠ .reset) :
    ∀ e ∈ es, ∀ now, e.op = .allow now → e.admits → opening + timeout s.config ≤ now := by
  induction run generalizing m with
  | nil s => simp
  | @cons s u t e es step rest ih =>
    obtain ⟨next, first⟩ := h.step step order.1 (keeps e List.mem_cons_self)
    have later := ih next order.2 fun x hx => keeps x (List.mem_cons_of_mem e hx)
    rw [step.config] at later
    intro x hx
    rcases List.mem_cons.mp hx with rfl | member
    · exact first
    · exact later x member

end Waits

/-! ### The test calls -/

/-- The breaker is open and has admitted nothing since, or is half-open and has a half-open call
counted for each of the `n` admissions. -/
def Exposed (n : ℕ) (s : CircuitBreaker) : Prop :=
  (s.state = .opened ∧ n = 0) ∨
    (s.state = .halfOpen ∧ n ≤ s.halfOpenCalls.toNat ∧
      s.halfOpenCalls.toNat ≤ s.config.halfOpenMaxCalls.toNat)

section Exposed

variable {n : ℕ} {s t : CircuitBreaker} {e : Entry}

/-- A test call is counted, whether or not it is one more admission, and the count stays within its
limit. -/
theorem Exposed.test (half : s.state = .halfOpen) (counted : n ≤ s.halfOpenCalls.toNat)
    (room : s.halfOpenCalls < s.config.halfOpenMaxCalls) :
    Exposed (n + if e.admits then 1 else 0) { s with halfOpenCalls := s.halfOpenCalls + 1 } := by
  have small : s.halfOpenCalls.toNat < s.config.halfOpenMaxCalls.toNat := room
  have bound := s.config.halfOpenMaxCalls.toNat_lt
  have one : (s.halfOpenCalls + 1).toNat = s.halfOpenCalls.toNat + 1 := by
    rw [UInt32.toNat_add, UInt32.toNat_one]
    omega
  refine .inr ⟨half, ?_, ?_⟩
  · rw [one]
    split_ifs <;> omega
  · rw [one]
    exact small

theorem Exposed.step (h : Exposed n s) (step : Step s e t) (keeps : e.op ≠ .reset)
    (unopened : e.opens = false) (unclosed : e.closes = false) :
    Exposed (n + if e.admits then 1 else 0) t := by
  have before := step.before
  have after := step.after
  rcases h with ⟨opened, rfl⟩ | ⟨half, counted, within⟩
  · cases op : e.op with
    | reset => exact absurd op keeps
    | success =>
      obtain ⟨rfl, refused⟩ := step.success op
      rw [(report_opened opened 0 0).1, refused]
      exact .inl ⟨opened, rfl⟩
    | failure failedAt openedAt =>
      obtain ⟨rfl, refused⟩ := step.failure op
      rw [(report_opened opened failedAt openedAt).2, refused]
      exact .inl ⟨opened, rfl⟩
    | allow now =>
      obtain ⟨mid, checked, cases⟩ := step.allow_cases op
      rcases checkTimeout_cases checked with rfl | ⟨_, rfl⟩
      · rcases cases with ⟨closed, _⟩ | ⟨half, _⟩ | ⟨_, rfl, refused⟩
        · simp [opened] at closed
        · simp [opened] at half
        · rw [refused]
          exact .inl ⟨opened, rfl⟩
      · rcases cases with ⟨closed, _⟩ | ⟨_, room, rfl⟩ | ⟨_, rfl, refused⟩
        · simp [CircuitBreaker.probing] at closed
        · exact .test rfl (Nat.zero_le _) room
        · rw [refused]
          exact .inr ⟨rfl, Nat.zero_le _, Nat.zero_le _⟩
  · cases op : e.op with
    | reset => exact absurd op keeps
    | success =>
      obtain ⟨rfl, refused⟩ := step.success op
      rw [refused]
      by_cases enough : s.config.successThreshold ≤ s.successCount + 1
      · simp [Entry.closes, before, after, CircuitBreaker.recordSuccess, half, enough] at unclosed
      · simp only [CircuitBreaker.recordSuccess, half, enough, if_false]
        exact .inr ⟨rfl, counted, within⟩
    | failure failedAt openedAt =>
      obtain ⟨rfl, _⟩ := step.failure op
      simp [Entry.opens, before, after, CircuitBreaker.recordFailure, half] at unopened
    | allow now =>
      obtain ⟨mid, checked, cases⟩ := step.allow_cases op
      rw [checkTimeout_of_ne_opened (by simp [half])] at checked
      obtain rfl := Except.ok.inj checked
      rcases cases with ⟨closed, _⟩ | ⟨_, room, rfl⟩ | ⟨_, rfl, refused⟩
      · simp [half] at closed
      · exact .test half counted room
      · rw [refused]
        exact .inr ⟨half, counted, within⟩

theorem Exposed.run {es : List Entry} (run : Run Step s es t) (h : Exposed n s)
    (keeps : ∀ e ∈ es, e.op ≠ .reset) (quiet : ∀ e ∈ es, e.opens = false ∧ e.closes = false) :
    Exposed (n + es.countP Entry.admits) t := by
  induction run generalizing n with
  | nil s => exact h
  | @cons s u t e es step rest ih =>
    have moved := quiet e List.mem_cons_self
    have next := h.step step (keeps e List.mem_cons_self) moved.1 moved.2
    have last := ih next (fun x hx => keeps x (List.mem_cons_of_mem e hx))
      fun x hx => quiet x (List.mem_cons_of_mem e hx)
    rw [List.countP_cons, Nat.add_comm (es.countP _), ← Nat.add_assoc]
    exact last

theorem Exposed.le (h : Exposed n s) : n ≤ s.config.halfOpenMaxCalls.toNat := by
  rcases h with ⟨_, rfl⟩ | ⟨_, counted, within⟩
  · exact Nat.zero_le _
  · exact counted.trans within

end Exposed

/-- After a failure that opens the breaker, no request is admitted before the timeout; and until the
breaker closes or opens again, no more requests are admitted than its half-open calls. -/
theorem exposure_bound (name : String) (config : CircuitBreakerConfig)
    (before after : List Entry) (trip : Entry) (failedAt openedAt : ℤ) (t u : CircuitBreaker)
    (history : Run Step (CircuitBreaker.new name config) (before ++ [trip]) t)
    (call : trip.op = .failure failedAt openedAt) (opens : trip.opens)
    (run : Run Step t after u) (order : InOrder openedAt after)
    (keeps : ∀ e ∈ after, e.op ≠ .reset) :
    (∀ e ∈ after, ∀ now, e.op = .allow now → e.admits →
      openedAt + config.timeoutSecs.toInt * 1000000000 ≤ now) ∧
    ((∀ e ∈ after, e.opens = false ∧ e.closes = false) →
      after.countP Entry.admits ≤ config.halfOpenMaxCalls.toNat) := by
  obtain ⟨s, past, last⟩ := history.split
  have step : Step s trip t := Run.single_iff.mp last
  have same : t.config = config := run_config history
  obtain ⟨opened, found⟩ := opening_failure step call opens
  constructor
  · have waits := Waits.run run (.inl ⟨opened, openedAt, found, le_rfl⟩) order keeps
    rw [same] at waits
    exact waits
  · intro quiet
    have finish := (Exposed.run run (.inl ⟨opened, rfl⟩) keeps quiet).le
    rw [run_config run, same, Nat.zero_add] at finish
    exact finish

/-- A breaker that was opened at 0 for thirty seconds. A success that arrives late changes nothing,
and of the two requests after the timeout one is admitted. -/
theorem exposure_bound_late_success :
    (0 : ℤ) + 30 * 1000000000 ≤ 30000000000 ∧
      [(⟨.success, none, .opened, .opened⟩ : Entry),
        ⟨.allow 10000000000, some (.error (.opened "db" (some 0))), .opened, .opened⟩,
        ⟨.allow 30000000000, some (.ok ()), .opened, .halfOpen⟩,
        ⟨.allow 31000000000, some (.error (.halfOpenExhausted "db")), .halfOpen, .halfOpen⟩].countP
          Entry.admits ≤ 1 := by
  have trip : Step (CircuitBreaker.new "db" ⟨1, 2, 30, 1⟩)
      ⟨.failure 0 0, none, .closed, .opened⟩
      ⟨"db", ⟨1, 2, 30, 1⟩, .opened, 1, 0, some 0, some 0, 0⟩ := by
    decide +kernel
  have late : Step ⟨"db", ⟨1, 2, 30, 1⟩, .opened, 1, 0, some 0, some 0, 0⟩
      ⟨.success, none, .opened, .opened⟩
      ⟨"db", ⟨1, 2, 30, 1⟩, .opened, 1, 0, some 0, some 0, 0⟩ := by
    decide +kernel
  have early : Step ⟨"db", ⟨1, 2, 30, 1⟩, .opened, 1, 0, some 0, some 0, 0⟩
      ⟨.allow 10000000000, some (.error (.opened "db" (some 0))), .opened, .opened⟩
      ⟨"db", ⟨1, 2, 30, 1⟩, .opened, 1, 0, some 0, some 0, 0⟩ := by
    decide +kernel
  have test : Step ⟨"db", ⟨1, 2, 30, 1⟩, .opened, 1, 0, some 0, some 0, 0⟩
      ⟨.allow 30000000000, some (.ok ()), .opened, .halfOpen⟩
      ⟨"db", ⟨1, 2, 30, 1⟩, .halfOpen, 1, 0, some 0, some 0, 1⟩ := by
    decide +kernel
  have more : Step ⟨"db", ⟨1, 2, 30, 1⟩, .halfOpen, 1, 0, some 0, some 0, 1⟩
      ⟨.allow 31000000000, some (.error (.halfOpenExhausted "db")), .halfOpen, .halfOpen⟩
      ⟨"db", ⟨1, 2, 30, 1⟩, .halfOpen, 1, 0, some 0, some 0, 1⟩ := by
    decide +kernel
  obtain ⟨waits, few⟩ := exposure_bound "db" ⟨1, 2, 30, 1⟩ [] _
    ⟨.failure 0 0, none, .closed, .opened⟩ 0 0 _ _ (.single trip) rfl rfl
    (.cons late (.cons early (.cons test (.single more)))) (by decide) (by decide)
  exact ⟨waits _ (.tail _ (.tail _ (.head _))) 30000000000 rfl rfl, few (by decide)⟩

end BusinessOs.Core.RateLimit.BreakerExposure
