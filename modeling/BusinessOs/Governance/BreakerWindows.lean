/- Source: crates/abos-governance-core/src/lib.rs (evaluate_circuit_breaker)
   digest: How many calls the integration breaker allows in a minute, and how long it stays open. -/

import BusinessOs.Governance.Breaker
import BusinessOs.Lib.Execution

set_option autoImplicit false
set_option relaxedAutoImplicit false

namespace BusinessOs.Governance.BreakerWindows

open BusinessOs.Lib BusinessOs.Lib.Chrono BusinessOs.Lib.Execution
open BusinessOs.Governance.Breaker

/-- One call and its decision. -/
structure Evaluated where
  now : ℤ
  decision : CircuitBreakerDecision
  deriving DecidableEq

/-- The call returns; its decision is the input of the next one, under the same limit. -/
def Step (mode : MachineInt.Overflow) (integration : String) (limit : UInt32)
    (last : Option CircuitBreakerDecision) (e : Evaluated) (next : Option CircuitBreakerDecision) :
    Prop :=
  evaluateCircuitBreaker mode (nextInput integration last ⟨e.now, limit⟩) = .ok e.decision ∧
    next = some e.decision

instance (mode : MachineInt.Overflow) (integration : String) (limit : UInt32)
    (last : Option CircuitBreakerDecision) (e : Evaluated) (next : Option CircuitBreakerDecision) :
    Decidable (Step mode integration limit last e next) :=
  inferInstanceAs (Decidable (_ ∧ _))

/-- The call is allowed and falls into the minute that begins at `a`. -/
def countedIn (a : ℤ) (e : Evaluated) : Bool :=
  e.decision.allowed && decide (a ≤ e.now ∧ e.now < a + minutes 1)

/-- The closed decision that leads to the first input. -/
def opening (integration : String) (limit : UInt32) (now : ℤ) : CircuitBreakerDecision where
  integration
  state := .closed
  allowed := false
  callsThisWindow := 0
  limitPerMinute := limit
  windowStartedAt := now
  openedUntil := none
  reason := ""

/-! ### One call -/

/-- The decision `d` still refuses at `now`. -/
def Refuses (d : CircuitBreakerDecision) (now : ℤ) : Prop :=
  d.state = .opened ∧ ∃ openedUntil ∈ d.openedUntil, openedUntil > now

/-- The window of `d` has ended by `now`. -/
def Expired (d : CircuitBreakerDecision) (now : ℤ) : Prop := d.windowStartedAt + minutes 1 ≤ now

instance (d : CircuitBreakerDecision) (now : ℤ) : Decidable (Expired d now) :=
  inferInstanceAs (Decidable (_ ≤ _))

/-- The calls of the window that a call after `d` falls into, with that call. -/
def counted (d : CircuitBreakerDecision) (now : ℤ) : ℕ :=
  (if Expired d now then 0 else d.callsThisWindow.toNat) + 1

def started (d : CircuitBreakerDecision) (now : ℤ) : ℤ :=
  if Expired d now then now else d.windowStartedAt

/-- What the decision `e` after `d` can be. -/
inductive Decided (d : CircuitBreakerDecision) (limit : UInt32) (now : ℤ)
    (e : CircuitBreakerDecision) : Prop
  | refused (denied : e.allowed = false) (state : e.state = d.state)
      (calls : e.callsThisWindow = d.callsThisWindow)
      (window : e.windowStartedAt = d.windowStartedAt) (openedUntil : e.openedUntil = d.openedUntil)
  | exceeded (denied : e.allowed = false) (state : e.state = .opened)
      (calls : e.callsThisWindow.toNat = counted d now) (window : e.windowStartedAt = started d now)
      (openedUntil : e.openedUntil = some (now + minutes 5))
  | allowed (granted : e.allowed = true) (state : e.state = .closed)
      (calls : e.callsThisWindow.toNat = counted d now) (window : e.windowStartedAt = started d now)
      (within : counted d now ≤ limit.toNat)

/-- The window has started, and either it has room or the breaker opened in it. -/
structure Window (limit : UInt32) (m : ℤ) (d : CircuitBreakerDecision) : Prop where
  started : d.windowStartedAt ≤ m
  closed : d.state = .closed → d.callsThisWindow.toNat ≤ limit.toNat
  opened : d.state = .opened → ∃ t, d.openedUntil = some (t + minutes 5) ∧ d.windowStartedAt ≤ t

/-- A minute's budget: before it begins nothing is spent; a window that began before it, and the
first one that begins in it, spend at most the limit each. -/
structure Budget (a : ℤ) (limit : UInt32) (m : ℤ) (d : CircuitBreakerDecision) (spent : ℕ) :
    Prop where
  before : m < a → spent = 0
  first : d.windowStartedAt < a → spent ≤ d.callsThisWindow.toNat ∧ spent ≤ limit.toNat
  second : d.windowStartedAt < a + minutes 1 → spent ≤ limit.toNat + d.callsThisWindow.toNat
  total : spent ≤ 2 * limit.toNat

section Steps

variable {mode : MachineInt.Overflow} {integration : String} {limit : UInt32} {m now a : ℤ}
  {d e : CircuitBreakerDecision} {spent : ℕ}

/-- When a breaker that opened asks its window again, that window has ended. -/
theorem Window.room (h : Window limit m d) (small : limit.toNat < 2 ^ 32 - 1)
    (running : ¬ Expired d now) (passes : ¬ Refuses d now) :
    d.callsThisWindow.toNat < 2 ^ 32 - 1 := by
  cases state : d.state with
  | closed => exact (h.closed state).trans_lt small
  | opened =>
    obtain ⟨t, openedUntil, after⟩ := h.opened state
    have passed : t + minutes 5 ≤ now := by
      by_contra later
      exact passes ⟨state, _, openedUntil, not_le.mp later⟩
    unfold Expired minutes at *
    omega

theorem Window.decided (h : Window limit m d) (small : limit.toNat < 2 ^ 32 - 1)
    (returns : evaluateCircuitBreaker mode (d.feed ⟨now, limit⟩) = .ok e) :
    Decided d limit now e := by
  obtain ⟨_, ⟨still, denied, _, state, calls, window, openedUntil⟩ |
    ⟨_, calls, window, ⟨_, denied, _, state, openedUntil⟩ | ⟨within, granted, _, state, _⟩⟩⟩ :=
    evaluateCircuitBreaker_returned mode returns fun running passes =>
      h.room small running passes
  · exact .refused denied (state.trans still.1.symm) calls window openedUntil
  · exact .exceeded denied state calls window openedUntil
  · exact .allowed granted state calls window within

theorem started_le (h : Window limit m d) (order : m ≤ now) : started d now ≤ now := by
  have := h.started
  unfold started
  split_ifs <;> omega

theorem Window.step (h : Window limit m d) (decided : Decided d limit now e) (order : m ≤ now) :
    Window limit now e := by
  have before := started_le h order
  cases decided with
  | refused _ state calls window openedUntil =>
    refine ⟨?_, ?_, ?_⟩
    · rw [window]
      exact h.started.trans order
    · rw [state, calls]
      exact h.closed
    · rw [state, window, openedUntil]
      exact h.opened
  | exceeded _ state _ window openedUntil =>
    refine ⟨by omega, fun closed => absurd (state.symm.trans closed) (by decide), fun _ => ?_⟩
    exact ⟨now, openedUntil, by omega⟩
  | allowed _ state calls window within =>
    refine ⟨by omega, fun _ => by omega, fun opened => ?_⟩
    exact absurd (state.symm.trans opened) (by decide)

theorem Budget.step (h : Budget a limit m d spent) (window : Window limit m d)
    (decided : Decided d limit now e) (order : m ≤ now) :
    Budget a limit now e (spent + if countedIn a ⟨now, e⟩ then 1 else 0) := by
  have begun := window.started
  have before := h.before
  have first := h.first
  have second := h.second
  have total := h.total
  cases decided with
  | refused denied state calls same openedUntil =>
    have none : countedIn a ⟨now, e⟩ = false := by simp [countedIn, denied]
    rw [none, if_neg Bool.false_ne_true, Nat.add_zero]
    refine ⟨by omega, ?_, ?_, total⟩
    · rw [same, calls]
      exact first
    · rw [same, calls]
      exact second
  | exceeded denied state calls same openedUntil =>
    have none : countedIn a ⟨now, e⟩ = false := by simp [countedIn, denied]
    rw [none, if_neg Bool.false_ne_true, Nat.add_zero]
    refine ⟨by omega, ?_, ?_, total⟩
    · rw [same, calls]
      unfold started counted
      split_ifs <;> omega
    · rw [same, calls]
      unfold started counted
      split_ifs with expired
      · unfold Expired at expired
        omega
      · omega
  | allowed granted state calls same within =>
    have spends : (if countedIn a ⟨now, e⟩ then 1 else 0) =
        if a ≤ now ∧ now < a + minutes 1 then 1 else 0 := by simp [countedIn, granted]
    rw [spends]
    unfold started counted at *
    by_cases expired : Expired d now
    · -- a new window: the one before it has ended within the minute, or before it
      simp only [expired, if_true] at same calls within
      unfold Expired at expired
      refine ⟨?_, ?_, ?_, ?_⟩ <;> split_ifs <;> omega
    · simp only [expired, if_false] at same calls within
      refine ⟨?_, ?_, ?_, ?_⟩ <;> split_ifs <;> omega

end Steps

/-! ### Runs -/

section Runs

variable {mode : MachineInt.Overflow} {integration : String} {limit : UInt32}

theorem Budget.run {a : ℤ} (small : limit.toNat < 2 ^ 32 - 1) {s t : Option CircuitBreakerDecision}
    {es : List Evaluated} (run : Run (Step mode integration limit) s es t)
    {d : CircuitBreakerDecision} (found : s = some d) {m : ℤ} {spent : ℕ}
    (window : Window limit m d) (h : Budget a limit m d spent)
    (order : (es.map Evaluated.now).Pairwise (· ≤ ·)) (after : ∀ e ∈ es, m ≤ e.now) :
    spent + es.countP (countedIn a) ≤ 2 * limit.toNat := by
  induction run generalizing d m spent with
  | nil s => simpa using h.total
  | @cons s u t e es step rest ih =>
    subst found
    obtain ⟨returns, next⟩ := step
    have first := after e List.mem_cons_self
    have decided := window.decided small returns
    rw [List.map_cons, List.pairwise_cons] at order
    have last : spent + (if countedIn a e then 1 else 0) + es.countP (countedIn a) ≤
        2 * limit.toNat :=
      ih next (window.step decided first) (h.step window decided first) order.2
        fun x hx => order.1 x.now (List.mem_map_of_mem hx)
    rw [List.countP_cons]
    omega

/-- The reason tells that the call opened the breaker. -/
theorem exceeded_opens {input : CircuitBreakerInput} {decision : CircuitBreakerDecision}
    (h : evaluateCircuitBreaker mode input = .ok decision)
    (exceeded : decision.reason = "rate limit exceeded") :
    decision.state = .opened ∧ decision.openedUntil = some (input.now + minutes 5) := by
  unfold evaluateCircuitBreaker at h
  split at h
  · rw [← Except.ok.inj h] at exceeded
    exact absurd exceeded (show "circuit breaker is open" ≠ "rate limit exceeded" by decide)
  · obtain ⟨windowEnd, _, h⟩ := bind_eq_ok h
    obtain ⟨calls, _, h⟩ := bind_eq_ok h
    split at h
    · obtain ⟨openedUntil, opening, h⟩ := bind_eq_ok h
      rw [← Except.ok.inj h, addDelta_ok opening]
      exact ⟨rfl, rfl⟩
    · rw [← Except.ok.inj h] at exceeded
      exact absurd exceeded (show "call allowed" ≠ "rate limit exceeded" by decide)

/-- While the breaker is open until `until`, nothing is allowed before it. -/
theorem run_refused {s t : Option CircuitBreakerDecision} {es : List Evaluated}
    (run : Run (Step mode integration limit) s es t) {d : CircuitBreakerDecision} {u : ℤ}
    (found : s = some d) (opened : d.state = .opened) (openedUntil : d.openedUntil = some u)
    (order : (es.map Evaluated.now).Pairwise (· ≤ ·)) :
    ∀ e ∈ es, e.now < u → e.decision.allowed = false := by
  induction run generalizing d with
  | nil s => simp
  | @cons s v t e es step rest ih =>
    subst found
    obtain ⟨returns, next⟩ := step
    rw [List.map_cons, List.pairwise_cons] at order
    by_cases early : e.now < u
    · have refuses : Refuses d e.now := ⟨opened, u, openedUntil, early⟩
      have refused : e.decision.allowed = false ∧ e.decision.state = .opened ∧
          e.decision.openedUntil = some u := by
        obtain ⟨_, ⟨_, denied, _, state, _, _, same⟩ | ⟨passes, _⟩⟩ :=
          evaluateCircuitBreaker_returned mode returns fun _ passes => absurd refuses passes
        · exact ⟨denied, state, same.trans openedUntil⟩
        · exact absurd refuses passes
      have later := ih next refused.2.1 refused.2.2 order.2
      intro x hx
      rcases List.mem_cons.mp hx with rfl | member
      · exact fun _ => refused.1
      · exact later x member
    · intro x hx soon
      rcases List.mem_cons.mp hx with rfl | member
      · exact absurd soon early
      · have := order.1 x.now (List.mem_map_of_mem member)
        omega

/-- The first call finds a closed window that begins with it. -/
theorem opening_window (limit : UInt32) (now : ℤ) :
    Window limit now (opening integration limit now) :=
  ⟨le_rfl, fun _ => Nat.zero_le _, fun opened => by simp [opening] at opened⟩

theorem opening_budget (a : ℤ) (limit : UInt32) (now : ℤ) :
    Budget a limit now (opening integration limit now) 0 :=
  ⟨fun _ => rfl, fun _ => ⟨Nat.zero_le _, Nat.zero_le _⟩, fun _ => Nat.zero_le _, Nat.zero_le _⟩

end Runs

/-- Under one limit and a clock that does not go back, at most twice the limit is allowed in any
minute, and after a call that exceeds the limit nothing is allowed for five minutes. -/
theorem window_bound (mode : MachineInt.Overflow) (integration : String) (limit : UInt32)
    (small : limit.toNat < 2 ^ 32 - 1) (es : List Evaluated) (t : Option CircuitBreakerDecision)
    (run : Run (Step mode integration limit) none es t)
    (order : (es.map Evaluated.now).Pairwise (· ≤ ·)) :
    (∀ a, es.countP (countedIn a) ≤ 2 * limit.toNat) ∧
    ∀ before e after, es = before ++ e :: after → e.decision.reason = "rate limit exceeded" →
      ∀ x ∈ after, x.now < e.now + minutes 5 → x.decision.allowed = false := by
  constructor
  · intro a
    cases run with
    | nil => exact Nat.zero_le _
    | @cons _ u _ e es step rest =>
      have first : Step mode integration limit (some (opening integration limit e.now)) e u := step
      have after : ∀ x ∈ e :: es, e.now ≤ x.now := by
        rw [List.map_cons, List.pairwise_cons] at order
        intro x hx
        rcases List.mem_cons.mp hx with rfl | member
        · exact le_rfl
        · exact order.1 x.now (List.mem_map_of_mem member)
      have bound := Budget.run small (.cons first rest) rfl (opening_window limit e.now)
        (opening_budget a limit e.now) order after
      rwa [Nat.zero_add] at bound
  · rintro before e after rfl exceeded
    obtain ⟨last, _, rest⟩ := run.split
    cases rest with
    | cons step rest =>
      obtain ⟨returns, rfl⟩ := step
      obtain ⟨state, openedUntil⟩ := exceeded_opens returns exceeded
      have now : (nextInput integration last ⟨e.now, limit⟩).now = e.now := by
        cases last <;> rfl
      rw [now] at openedUntil
      rw [List.map_append, List.pairwise_append, List.map_cons, List.pairwise_cons] at order
      exact run_refused rest rfl state openedUntil order.2.1.2

/-- One call a minute: a second window begins after a minute, and the second call in it opens the
breaker. -/
theorem window_bound_straddling :
    [(⟨0, ⟨"crm", .closed, true, 1, 1, 0, none, "call allowed"⟩⟩ : Evaluated),
      ⟨60000000000, ⟨"crm", .closed, true, 1, 1, 60000000000, none, "call allowed"⟩⟩,
      ⟨61000000000, ⟨"crm", .opened, false, 2, 1, 60000000000, some 361000000000,
        "rate limit exceeded"⟩⟩,
      ⟨360999999999, ⟨"crm", .opened, false, 2, 1, 60000000000, some 361000000000,
        "circuit breaker is open"⟩⟩].countP (countedIn 5000000000) ≤ 2 ∧
    (⟨"crm", .opened, false, 2, 1, 60000000000, some 361000000000, "circuit breaker is open"⟩ :
      CircuitBreakerDecision).allowed = false := by
  have first : Step .wrapping "crm" 1 none
      ⟨0, ⟨"crm", .closed, true, 1, 1, 0, none, "call allowed"⟩⟩
      (some ⟨"crm", .closed, true, 1, 1, 0, none, "call allowed"⟩) := by
    decide +kernel
  have second : Step .wrapping "crm" 1 (some ⟨"crm", .closed, true, 1, 1, 0, none, "call allowed"⟩)
      ⟨60000000000, ⟨"crm", .closed, true, 1, 1, 60000000000, none, "call allowed"⟩⟩
      (some ⟨"crm", .closed, true, 1, 1, 60000000000, none, "call allowed"⟩) := by
    decide +kernel
  have third : Step .wrapping "crm" 1
      (some ⟨"crm", .closed, true, 1, 1, 60000000000, none, "call allowed"⟩)
      ⟨61000000000, ⟨"crm", .opened, false, 2, 1, 60000000000, some 361000000000,
        "rate limit exceeded"⟩⟩
      (some ⟨"crm", .opened, false, 2, 1, 60000000000, some 361000000000,
        "rate limit exceeded"⟩) := by
    decide +kernel
  have fourth : Step .wrapping "crm" 1
      (some ⟨"crm", .opened, false, 2, 1, 60000000000, some 361000000000,
        "rate limit exceeded"⟩)
      ⟨360999999999, ⟨"crm", .opened, false, 2, 1, 60000000000, some 361000000000,
        "circuit breaker is open"⟩⟩
      (some ⟨"crm", .opened, false, 2, 1, 60000000000, some 361000000000,
        "circuit breaker is open"⟩) := by
    decide +kernel
  obtain ⟨within, refused⟩ := window_bound .wrapping "crm" 1 (by decide) _ _
    (.cons first (.cons second (.cons third (.single fourth)))) (by decide)
  exact ⟨within 5000000000, refused [_, _] _ [_] rfl rfl _ (.head _) (by decide)⟩

end BusinessOs.Governance.BreakerWindows
