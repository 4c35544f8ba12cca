/- Source: crates/abos-governance-core/src/lib.rs (evaluate_circuit_breaker);
   app/services/guardrails.py (CircuitBreakerService.check)
   digest: The two integration breakers decide alike and keep the same values. -/

import BusinessOs.App.Breakers
import BusinessOs.Governance.Breaker
import Mathlib.Data.List.Induction
import Mathlib.Data.List.Infix

set_option autoImplicit false
set_option relaxedAutoImplicit false

namespace BusinessOs.App.BreakerAgreement

open BusinessOs.Lib BusinessOs.Lib.Chrono BusinessOs.App.Models BusinessOs.App.Breakers
open BusinessOs.Governance.Breaker

/-- The column's value for a state. -/
def stored : CircuitState → BreakerState
  | .closed => .closed
  | .opened => .opened

/-- The store after calls in order, whether they returned or raised. -/
def checkCalls (integration : String) (store : Store) (calls : List Call) : Store :=
  calls.foldl
    (fun store call => (check store integration call.limitPerMinute.toNat call.now).1) store

/-- A closed breaker has no end of opening, and an open one stays open for five minutes from
the start of its window at least. -/
structure Timed (row : CircuitBreaker) : Prop where
  closed : row.state = .closed → row.openedUntil = none
  opened : row.state = .opened →
    ∃ openedUntil, row.openedUntil = some openedUntil ∧
      row.windowStartedAt + minutes 5 ≤ openedUntil

/-- The next input of one breaker has the values of the other one's row. -/
structure Matches (input : CircuitBreakerInput) (row : CircuitBreaker) : Prop where
  state : stored input.state = row.state
  callsThisWindow : (input.callsThisWindow.toNat : ℤ) = row.callsThisWindow
  windowStartedAt : input.windowStartedAt = row.windowStartedAt
  openedUntil : input.openedUntil = row.openedUntil

/-- A decision holds the values of the row. -/
structure Agrees (decision : CircuitBreakerDecision) (row : CircuitBreaker) : Prop where
  state : stored decision.state = row.state
  callsThisWindow : (decision.callsThisWindow.toNat : ℤ) = row.callsThisWindow
  windowStartedAt : decision.windowStartedAt = row.windowStartedAt
  openedUntil : decision.openedUntil = row.openedUntil

section Step

variable {row : CircuitBreaker} {limitPerMinute now : ℤ}

theorem stored_opened {state : CircuitState} : state = .opened ↔ stored state = .opened := by
  cases state <;> simp [stored]

theorem Matches.refused {input : CircuitBreakerInput} (same : Matches input row) :
    (input.state = .opened ∧ ∃ openedUntil ∈ input.openedUntil, openedUntil > input.now) ↔
      row.Open input.now := by
  rw [stored_opened, same.state, same.openedUntil]
  exact Iff.rfl

/-- A row in its window that is not open is closed: an open one's window ends before it does. -/
theorem Timed.reset (timed : Timed row) (past : ¬ row.Open now) :
    row.windowStartedAt + minutes 1 ≤ now ∨ row.state = .closed := by
  cases state : row.state with
  | closed => exact .inr rfl
  | opened =>
    left
    obtain ⟨openedUntil, until_, later⟩ := timed.opened state
    have above : ¬ openedUntil > now := fun still =>
      past ⟨state, openedUntil, by rw [until_]; rfl, still⟩
    unfold minutes at *
    omega

/-- Within the limit a call leaves the breaker closed. -/
theorem Timed.charged_closed (timed : Timed row) (past : ¬ row.Open now)
    (within : row.counted now ≤ limitPerMinute) :
    (row.charged limitPerMinute now).state = .closed ∧
      (row.charged limitPerMinute now).openedUntil = none := by
  obtain ⟨state, openedUntil⟩ := charged_not_over within
  rw [state, openedUntil]
  by_cases expired : row.windowStartedAt + minutes 1 ≤ now
  · simp [expired]
  · have closed : row.state = .closed := (timed.reset past).resolve_left expired
    simp [expired, closed, timed.closed closed]

theorem charged_over (above : limitPerMinute < row.counted now) :
    (row.charged limitPerMinute now).state = .opened ∧
      (row.charged limitPerMinute now).openedUntil = some (now + minutes 5) := by
  simp only [CircuitBreaker.charged, above, if_true, and_self]

theorem charged_window (limitPerMinute : ℤ) (started : row.windowStartedAt ≤ now) :
    (row.charged limitPerMinute now).windowStartedAt ≤ now := by
  unfold CircuitBreaker.charged
  by_cases expired : row.windowStartedAt + minutes 1 ≤ now
  · simp [expired]
  · simpa [expired] using started

theorem Timed.charged (timed : Timed row) (past : ¬ row.Open now)
    (started : row.windowStartedAt ≤ now) : Timed (row.charged limitPerMinute now) := by
  by_cases above : limitPerMinute < row.counted now
  · obtain ⟨state, openedUntil⟩ := charged_over above
    refine ⟨fun closed => ?_, fun _ => ⟨_, openedUntil, ?_⟩⟩
    · rw [state] at closed
      cases closed
    · have window := charged_window limitPerMinute started
      omega
  · obtain ⟨state, openedUntil⟩ := timed.charged_closed past (not_lt.mp above)
    refine ⟨fun _ => openedUntil, fun opened => ?_⟩
    rw [state] at opened
    cases opened

end Step

/-- One call of each from matching values: they decide alike and keep matching values. -/
theorem step_agrees (mode : MachineInt.Overflow) {integration : String} {store : Store}
    {input : CircuitBreakerInput} {row : CircuitBreaker}
    (found : store.found integration input.limitPerMinute.toNat input.now = row)
    (same : Matches input row) (timed : Timed row) (started : row.windowStartedAt ≤ input.now)
    (window : Representable (input.windowStartedAt + minutes 1))
    (opening : Representable (input.now + minutes 5))
    (small : row.callsThisWindow < 2 ^ 32 - 1) :
    ∃ decision next, evaluateCircuitBreaker mode input = .ok decision ∧
      (check store integration input.limitPerMinute.toNat input.now).1.breaker integration =
        some next ∧
      Agrees decision next ∧
      (decision.allowed = true ↔
        ∃ b, (check store integration input.limitPerMinute.toNat input.now).2 = .ok b) ∧
      Timed next ∧
      (next.windowStartedAt = row.windowStartedAt ∨ next.windowStartedAt = input.now) := by
  have calls := same.callsThisWindow
  obtain ⟨decision, evaluated, _, decided⟩ := evaluateCircuitBreaker_cases mode input
    window opening (by omega)
  have checked := check_cases store integration input.limitPerMinute.toNat input.now
  simp only [found] at checked
  rcases checked with ⟨still, after, raised⟩ | ⟨past, after, returned⟩
  · rcases decided with ⟨_, denied, state, count, start, until_⟩ | ⟨goes, _⟩
    · refine ⟨decision, row, evaluated, after, ⟨?_, ?_, ?_, ?_⟩, ?_, timed, .inl rfl⟩
      · rw [state]
        exact still.1.symm
      · rw [count, calls]
      · rw [start, same.windowStartedAt]
      · rw [until_, same.openedUntil]
      · exact iff_of_false (by simp [denied]) fun ⟨b, ok⟩ => raised b ok
    · exact absurd (same.refused.mpr still) goes
  · rcases decided with ⟨refused, _⟩ | ⟨_, count, start, verdict⟩
    · exact absurd (same.refused.mp refused) past
    · rw [same.windowStartedAt] at count start verdict
      have counted : ((((if row.windowStartedAt + minutes 1 ≤ input.now then 0
          else input.callsThisWindow.toNat) + 1 : ℕ)) : ℤ) = row.counted input.now := by
        unfold CircuitBreaker.counted
        by_cases expired : row.windowStartedAt + minutes 1 ≤ input.now
        · simp [expired]
        · simp [expired, calls]
      refine ⟨decision, row.charged input.limitPerMinute.toNat input.now, evaluated, after,
        ⟨?_, ?_, start, ?_⟩, ?_, timed.charged past started, ?_⟩
      · rcases verdict with ⟨above, _, state, _⟩ | ⟨within, _, state, _⟩
        · rw [state, (charged_over (by omega)).1]
          rfl
        · rw [state, (timed.charged_closed past (by omega)).1]
          rfl
      · rw [count]
        exact counted
      · rcases verdict with ⟨above, _, _, until_⟩ | ⟨within, _, _, until_⟩
        · rw [until_, (charged_over (by omega)).2]
        · rw [until_, (timed.charged_closed past (by omega)).2]
      · rw [returned]
        rcases verdict with ⟨above, denied, _⟩ | ⟨within, allowed, _⟩
        · exact iff_of_false (by simp [denied]) (by omega)
        · exact iff_of_true allowed (by omega)
      · unfold CircuitBreaker.charged
        by_cases expired : row.windowStartedAt + minutes 1 ≤ input.now
        · exact .inr (if_pos expired)
        · exact .inl (if_neg expired)

/-- After some calls, whatever call comes next finds matching values, and a window that one of
the calls started. -/
def Joint (mode : MachineInt.Overflow) (integration : String) (store : Store)
    (calls : List Call) : Prop :=
  ∃ last, evaluateCalls mode integration calls = .ok last ∧
    ∀ call : Call, ∃ row, (checkCalls integration store calls).found integration
        call.limitPerMinute.toNat call.now = row ∧
      Matches (nextInput integration last call) row ∧ Timed row ∧
      ∃ c ∈ calls ++ [call], row.windowStartedAt = c.now

section Run

variable {mode : MachineInt.Overflow} {integration : String} {store : Store}
variable {calls : List Call} {call : Call}

theorem nextInput_call (integration : String) (call : Call) (last : Option CircuitBreakerDecision) :
    (nextInput integration last call).limitPerMinute = call.limitPerMinute ∧
      (nextInput integration last call).now = call.now := by
  cases last <;> exact ⟨rfl, rfl⟩

theorem joint_nil (fresh : store.breaker integration = none) :
    Joint mode integration store [] := by
  refine ⟨none, rfl, fun call => ⟨.new integration call.limitPerMinute.toNat call.now, ?_,
    ⟨rfl, rfl, rfl, rfl⟩, ⟨fun _ => rfl, fun opened => ?_⟩, call, by simp, rfl⟩⟩
  · simp [checkCalls, Store.found, fresh]
  · cases opened

theorem checkCalls_snoc : checkCalls integration store (calls ++ [call]) =
    (check (checkCalls integration store calls) integration call.limitPerMinute.toNat
      call.now).1 := by
  simp [checkCalls]

theorem evaluateCalls_snoc {last : Option CircuitBreakerDecision}
    {decision : CircuitBreakerDecision}
    (before : evaluateCalls mode integration calls = .ok last)
    (evaluated : evaluateCircuitBreaker mode (nextInput integration last call) = .ok decision) :
    evaluateCalls mode integration (calls ++ [call]) = .ok (some decision) := by
  unfold evaluateCalls at *
  rw [List.foldlM_append, before, ok_bind, List.foldlM_cons, evaluated]
  rfl

theorem Agrees.matches_feed {decision : CircuitBreakerDecision} {row : CircuitBreaker}
    (same : Agrees decision row) (call : Call) : Matches (decision.feed call) row :=
  ⟨same.state, same.callsThisWindow, same.windowStartedAt, same.openedUntil⟩

/-- What one more call of each does after a common sequence of calls. -/
theorem Joint.step (joint : Joint mode integration store calls)
    (clock : (calls ++ [call]).Pairwise fun a b => a.now ≤ b.now)
    (readings : ∀ c ∈ calls ++ [call],
      Representable c.now ∧ Representable (c.now + minutes 5))
    (counter : ∀ row, (checkCalls integration store calls).breaker integration = some row →
      row.callsThisWindow < 2 ^ 32 - 1) :
    (∃ decision row, evaluateCalls mode integration (calls ++ [call]) = .ok (some decision) ∧
      (checkCalls integration store (calls ++ [call])).breaker integration = some row ∧
      Agrees decision row ∧
      (decision.allowed = true ↔ ∃ b, (check (checkCalls integration store calls) integration
        call.limitPerMinute.toNat call.now).2 = .ok b)) ∧
    Joint mode integration store (calls ++ [call]) := by
  obtain ⟨last, before, all⟩ := joint
  obtain ⟨row, found, same, timed, c, member, started⟩ := all call
  obtain ⟨limit, now⟩ := nextInput_call integration call last
  have order : c.now ≤ call.now := by
    rcases List.mem_append.mp member with earlier | here
    · exact (List.pairwise_append.mp clock).2.2 c earlier call List.mem_cons_self
    · rw [List.mem_singleton.mp here]
  have small : row.callsThisWindow < 2 ^ 32 - 1 := by
    cases held : (checkCalls integration store calls).breaker integration with
    | none =>
      simp only [Store.found, held, Option.getD_none] at found
      rw [← found]
      show (0 : ℤ) < 2 ^ 32 - 1
      decide
    | some r =>
      simp only [Store.found, held, Option.getD_some] at found
      rw [← found]
      exact counter r held
  have window : Representable ((nextInput integration last call).windowStartedAt + minutes 1) := by
    obtain ⟨low, high⟩ := readings c member
    rw [same.windowStartedAt, started]
    refine low.between high ?_ ?_ <;> unfold minutes <;> omega
  have opening : Representable ((nextInput integration last call).now + minutes 5) := by
    rw [now]
    exact (readings call (by simp)).2
  obtain ⟨decision, next, evaluated, after, agrees, verdict, timed', start⟩ :=
    step_agrees mode (by rw [limit, now]; exact found) same timed
      (by rw [now, started]; exact order) window opening small
  rw [limit, now] at after verdict
  have sequence := evaluateCalls_snoc before evaluated
  rw [← checkCalls_snoc] at after
  refine ⟨⟨decision, next, sequence, after, agrees, verdict⟩, some decision, sequence,
    fun later => ⟨next, ?_, agrees.matches_feed later, timed', ?_⟩⟩
  · simp [Store.found, after]
  · rcases start with kept | renewed
    · exact ⟨c, List.mem_append_left _ member, by rw [kept, started]⟩
    · exact ⟨call, by simp, by rw [renewed, now]⟩

theorem joint_calls (fresh : store.breaker integration = none)
    (clock : calls.Pairwise fun a b => a.now ≤ b.now)
    (readings : ∀ c ∈ calls, Representable c.now ∧ Representable (c.now + minutes 5))
    (counters : ∀ before, before <+: calls → before ≠ calls → ∀ row,
      (checkCalls integration store before).breaker integration = some row →
      row.callsThisWindow < 2 ^ 32 - 1) :
    Joint mode integration store calls := by
  induction calls using List.reverseRecOn with
  | nil => exact joint_nil fresh
  | append_singleton calls call ih =>
    have earlier : Joint mode integration store calls := by
      refine ih (List.pairwise_append.mp clock).1 ?_ ?_
      · exact fun c member => readings c (List.mem_append_left _ member)
      · intro before initial _
        refine counters before (initial.trans (List.prefix_append _ _)) ?_
        rintro rfl
        have lengths := initial.length_le
        simp at lengths
    refine (earlier.step clock readings ?_).2
    exact counters calls (List.prefix_append _ _) (by simp)

end Run

/-- Over exact instants, from a fresh breaker and for every sequence of calls, the two breakers
allow the same calls, and after every call they hold the same values. -/
theorem breakers_agree (mode : MachineInt.Overflow) (integration : String) (store : Store)
    (fresh : store.breaker integration = none) (calls : List Call) (call : Call)
    (clock : (calls ++ [call]).Pairwise fun a b => a.now ≤ b.now)
    (readings : ∀ c ∈ calls ++ [call],
      Representable c.now ∧ Representable (c.now + minutes 5))
    (counters : ∀ before, before <+: calls → ∀ row,
      (checkCalls integration store before).breaker integration = some row →
      row.callsThisWindow < 2 ^ 32 - 1) :
    ∃ decision row, evaluateCalls mode integration (calls ++ [call]) = .ok (some decision) ∧
      (checkCalls integration store (calls ++ [call])).breaker integration = some row ∧
      (decision.allowed = true ↔ ∃ b, (check (checkCalls integration store calls) integration
        call.limitPerMinute.toNat call.now).2 = .ok b) ∧
      stored decision.state = row.state ∧
      (decision.callsThisWindow.toNat : ℤ) = row.callsThisWindow ∧
      decision.windowStartedAt = row.windowStartedAt ∧
      decision.openedUntil = row.openedUntil := by
  have joint : Joint mode integration store calls := by
    refine joint_calls fresh (List.pairwise_append.mp clock).1 ?_ ?_
    · exact fun c member => readings c (List.mem_append_left _ member)
    · exact fun before initial _ => counters before initial
  obtain ⟨⟨decision, row, sequence, after, agrees, verdict⟩, _⟩ :=
    joint.step clock readings (counters calls (List.prefix_rfl))
  exact ⟨decision, row, sequence, after, verdict, agrees.state, agrees.callsThisWindow,
    agrees.windowStartedAt, agrees.openedUntil⟩

end BusinessOs.App.BreakerAgreement
