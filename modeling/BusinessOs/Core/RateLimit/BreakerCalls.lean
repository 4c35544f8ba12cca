/- Source: rust/src/rate_limit.rs (CircuitBreaker)
   digest: A breaker together with the overlapping calls it admitted and their reports. -/

import BusinessOs.Core.RateLimit.Breaker
import BusinessOs.Lib.Execution
import Mathlib.Tactic.Common

set_option autoImplicit false
set_option relaxedAutoImplicit false

namespace BusinessOs.Core.RateLimit.BreakerCalls

open BusinessOs.Lib.Chrono BusinessOs.Lib.Execution
open BusinessOs.Core.RateLimit.Breaker

/-- One report: its verdict, and the half-open period that was running, if any. -/
structure Report where
  success : Bool
  during : Option ℕ
  deriving DecidableEq, Repr

/-- One admitted call: the half-open period that admitted it, if any, and its report. -/
structure Call where
  admitted : Option ℕ
  report : Option Report
  deriving DecidableEq, Repr

/-- The breaker, the clock last read, the number of half-open periods begun, and every call
admitted so far. -/
structure World where
  breaker : CircuitBreaker
  clock : ℤ
  period : ℕ
  calls : List Call
  deriving DecidableEq

def World.start (name : String) (config : CircuitBreakerConfig) (clock : ℤ) : World :=
  ⟨.new name config, clock, 0, []⟩

/-- The running half-open period. -/
def World.during (w : World) : Option ℕ :=
  if w.breaker.state = .halfOpen then some w.period else none

inductive Event
  | allow (now : ℤ)
  | success (call : ℕ)
  | failure (call : ℕ) (failedAt openedAt : ℤ)
  deriving DecidableEq, Repr

/-- The world with the breaker after one of its calls; leaving `opened` for `halfOpen` begins a
period. -/
def World.advance (w : World) (breaker : CircuitBreaker) (clock : ℤ) : World :=
  let begins := w.breaker.state = .opened ∧ breaker.state = .halfOpen
  { w with breaker, clock, period := if begins then w.period + 1 else w.period }

/-- File the report of a call that is still in flight. -/
def World.file (w : World) (call : ℕ) (success : Bool) : Option World :=
  match w.calls[call]? with
  | some ⟨admitted, none⟩ =>
    some { w with calls := w.calls.set call ⟨admitted, some ⟨success, w.during⟩⟩ }
  | _ => none

/-- One step: a request for admission, or the one report of a call in flight. -/
def World.step (w : World) : Event → Option World
  | .allow now =>
    match w.breaker.allowRequest now with
    | .ok (breaker, .ok ()) =>
      let w := w.advance breaker now
      some { w with calls := w.calls ++ [⟨w.during, none⟩] }
    | .ok (breaker, .error _) => some (w.advance breaker now)
    | .error _ => none
  | .success call => do
    let filed ← w.file call true
    some (filed.advance w.breaker.recordSuccess w.clock)
  | .failure call failedAt openedAt => do
    let filed ← w.file call false
    some (filed.advance (w.breaker.recordFailure failedAt openedAt) openedAt)

/-- The clock readings of a step do not go back. -/
def Forward (w : World) : Event → Prop
  | .allow now => w.clock ≤ now
  | .success _ => True
  | .failure _ failedAt openedAt => w.clock ≤ failedAt ∧ failedAt ≤ openedAt

/-- Every admitted call has reported. -/
def World.Idle (w : World) : Prop := ∀ c ∈ w.calls, c.report ≠ none

/-- Calls that `p` admitted. -/
def admittedIn (p : ℕ) (c : Call) : Bool := c.admitted == some p

/-- Calls that reported success while `p` was running. -/
def succeededIn (p : ℕ) (c : Call) : Bool := c.report == some ⟨true, some p⟩

/-- Calls that `p` admitted and that have reported success. -/
def ownSuccess (p : ℕ) (c : Call) : Bool :=
  c.admitted == some p && (c.report.map Report.success) == some true

/-- Calls that were admitted before `p` and reported success while `p` was running. -/
def lateSuccess (p : ℕ) (c : Call) : Bool :=
  c.admitted != some p && c.report == some ⟨true, some p⟩

/-- What the counters of a half-open breaker count. -/
structure Probing (w : World) : Prop where
  admitted : w.breaker.halfOpenCalls.toNat = w.calls.countP (admittedIn w.period)
  succeeded : w.breaker.successCount.toNat = w.calls.countP (succeededIn w.period)
  below : w.breaker.successCount.toNat < max 1 w.breaker.config.successThreshold.toNat
  reports : ∀ c ∈ w.calls, c.admitted = some w.period →
    c.report = none ∨ c.report = some ⟨true, some w.period⟩

/-- The invariant of every run. -/
structure Sound (w : World) : Prop where
  admittedLe : ∀ c ∈ w.calls, ∀ p, c.admitted = some p → p ≤ w.period
  duringLe : ∀ c ∈ w.calls, ∀ r, c.report = some r → ∀ p, r.during = some p → p ≤ w.period
  openedAt : w.breaker.state = .opened → w.breaker.openedAt ≠ none
  probing : w.breaker.state = .halfOpen → Probing w

theorem start_sound (name : String) (config : CircuitBreakerConfig) (clock : ℤ) :
    Sound (World.start name config clock) := by
  refine ⟨by simp [World.start], by simp [World.start], ?_, ?_⟩
  · simp [World.start, CircuitBreaker.new]
  · simp [World.start, CircuitBreaker.new]

/-- A refused or admitted request starts from the breaker that the timeout check leaves. -/
theorem step_allow {w w' : World} {now : ℤ} (h : w.step (.allow now) = some w') :
    ∃ mid, w.breaker.checkTimeout now = .ok mid ∧
      (w' = w.advance mid now ∨
        (mid.state = .closed ∧
          w' = { w.advance mid now with calls := w.calls ++ [⟨none, none⟩] }) ∨
        (mid.state = .halfOpen ∧ mid.halfOpenCalls < mid.config.halfOpenMaxCalls ∧
          w' = { w.advance mid now with
            breaker := { mid with halfOpenCalls := mid.halfOpenCalls + 1 }
            calls := w.calls ++ [⟨some (w.advance mid now).period, none⟩] })) := by
  simp only [World.step] at h
  split at h
  · rename_i next asked
    obtain ⟨mid, checked, ⟨closed, rfl⟩ | ⟨halfOpen, room, rfl⟩⟩ := allowRequest_ok asked
    · refine ⟨next, checked, .inr (.inl ⟨closed, ?_⟩)⟩
      simpa [World.advance, World.during, closed] using h.symm
    · refine ⟨mid, checked, .inr (.inr ⟨halfOpen, room, ?_⟩)⟩
      simpa [World.advance, World.during, halfOpen] using h.symm
  · rename_i next _ asked
    obtain ⟨checked, _⟩ := allowRequest_error asked
    exact ⟨next, checked, .inl (Option.some.inj h).symm⟩
  · simp at h

theorem file_eq {w filed : World} {call : ℕ} {success : Bool}
    (h : w.file call success = some filed) :
    ∃ admitted, w.calls[call]? = some ⟨admitted, none⟩ ∧
      filed = { w with calls := w.calls.set call ⟨admitted, some ⟨success, w.during⟩⟩ } := by
  unfold World.file at h
  split at h
  · rename_i admitted found
    exact ⟨admitted, found, (Option.some.inj h).symm⟩
  · simp at h

theorem step_success {w w' : World} {call : ℕ} (h : w.step (.success call) = some w') :
    ∃ filed, w.file call true = some filed ∧
      w' = filed.advance w.breaker.recordSuccess w.clock := by
  simp only [World.step, Option.bind_eq_bind, Option.bind_eq_some_iff, Option.some.injEq] at h
  obtain ⟨filed, found, result⟩ := h
  exact ⟨filed, found, result.symm⟩

theorem step_failure {w w' : World} {call : ℕ} {failedAt openedAt : ℤ}
    (h : w.step (.failure call failedAt openedAt) = some w') :
    ∃ filed, w.file call false = some filed ∧
      w' = filed.advance (w.breaker.recordFailure failedAt openedAt) openedAt := by
  simp only [World.step, Option.bind_eq_bind, Option.bind_eq_some_iff, Option.some.injEq] at h
  obtain ⟨filed, found, result⟩ := h
  exact ⟨filed, found, result.symm⟩

/-- A period begins only out of `opened`. -/
theorem advance_period {w : World} {breaker : CircuitBreaker} {clock : ℤ}
    (h : w.breaker.state ≠ .opened ∨ breaker.state ≠ .halfOpen) :
    w.advance breaker clock = { w with breaker, clock } := by
  have no : ¬ (w.breaker.state = .opened ∧ breaker.state = .halfOpen) := by tauto
  simp only [World.advance, no, if_false]

theorem Sound.checked {w : World} {mid : CircuitBreaker} {now : ℤ} (sound : Sound w)
    (h : w.breaker.checkTimeout now = .ok mid) : Sound (w.advance mid now) := by
  rcases checkTimeout_cases h with rfl | ⟨opened, rfl⟩
  · have same : w.advance w.breaker now = { w with clock := now } := by
      rw [advance_period]
      cases w.breaker.state <;> simp
    rw [same]
    exact ⟨sound.admittedLe, sound.duringLe, sound.openedAt, fun half =>
      let p := sound.probing half
      ⟨p.admitted, p.succeeded, p.below, p.reports⟩⟩
  · have begins : w.advance w.breaker.probing now =
        { w with breaker := w.breaker.probing, clock := now, period := w.period + 1 } := by
      simp [World.advance, opened, CircuitBreaker.probing]
    have fresh : ∀ c ∈ w.calls, c.admitted ≠ some (w.period + 1) := by
      intro c member same
      have := sound.admittedLe c member _ same
      omega
    have silent : ∀ c ∈ w.calls, c.report ≠ some ⟨true, some (w.period + 1)⟩ := by
      intro c member same
      have := sound.duringLe c member _ same _ rfl
      omega
    rw [begins]
    refine ⟨?_, ?_, by simp [CircuitBreaker.probing], fun _ => ⟨?_, ?_, ?_, ?_⟩⟩
    · intro c member p admitted
      exact (sound.admittedLe c member p admitted).trans (Nat.le_succ _)
    · intro c member r report p during
      exact (sound.duringLe c member r report p during).trans (Nat.le_succ _)
    · symm
      simpa [CircuitBreaker.probing, admittedIn, List.countP_eq_zero] using fresh
    · symm
      simpa [CircuitBreaker.probing, succeededIn, List.countP_eq_zero] using silent
    · simp [CircuitBreaker.probing]
    · intro c member same
      exact absurd same (fresh c member)

/-- A call that is admitted no later than now keeps every bound on the periods. -/
theorem Sound.admitted_bounds {w : World} (sound : Sound w) {admitted : Option ℕ}
    (now : ∀ p, admitted = some p → p ≤ w.period) :
    (∀ c ∈ w.calls ++ [⟨admitted, none⟩], ∀ p, c.admitted = some p → p ≤ w.period) ∧
      (∀ c ∈ w.calls ++ [⟨admitted, none⟩], ∀ r, c.report = some r → ∀ p, r.during = some p →
        p ≤ w.period) := by
  constructor
  · intro c member p own
    rcases List.mem_append.mp member with old | new
    · exact sound.admittedLe c old p own
    · obtain rfl := List.mem_singleton.mp new
      exact now p own
  · intro c member r report
    rcases List.mem_append.mp member with old | new
    · exact sound.duringLe c old r report
    · obtain rfl := List.mem_singleton.mp new
      simp at report

/-- Admitting one more call, in the period that is running or in none. -/
theorem Sound.allow {w w' : World} {now : ℤ} (sound : Sound w)
    (h : w.step (.allow now) = some w') : Sound w' := by
  obtain ⟨mid, checked, cases⟩ := step_allow h
  have after := sound.checked checked
  generalize hv : w.advance mid now = v at after cases
  have breaker : v.breaker = mid := by rw [← hv]; rfl
  have calls : w.calls = v.calls := by rw [← hv]; rfl
  rw [calls] at cases
  rcases cases with rfl | ⟨closed, rfl⟩ | ⟨halfOpen, room, rfl⟩
  · exact after
  · have none_ : ∀ p, (none : Option ℕ) = some p → p ≤ v.period := by simp
    obtain ⟨admittedLe, duringLe⟩ := after.admitted_bounds none_
    refine ⟨admittedLe, duringLe, after.openedAt, fun half => ?_⟩
    simp [breaker, closed] at half
  · have p := after.probing (breaker ▸ halfOpen)
    obtain ⟨admittedLe, duringLe⟩ :=
      after.admitted_bounds fun q own => (Option.some.inj own).ge
    refine ⟨admittedLe, duringLe, by simp [halfOpen], fun _ => ⟨?_, ?_, ?_, ?_⟩⟩
    · have admitted := p.admitted
      rw [breaker] at admitted
      have bound := UInt32.toNat_lt mid.config.halfOpenMaxCalls
      have less : mid.halfOpenCalls.toNat < mid.config.halfOpenMaxCalls.toNat := room
      simp only [List.countP_append, ← admitted, UInt32.toNat_add]
      simp [admittedIn]
      omega
    · have succeeded := p.succeeded
      rw [breaker] at succeeded
      simp [List.countP_append, ← succeeded, succeededIn]
    · have below := p.below
      rw [breaker] at below
      exact below
    · intro c member own
      rcases List.mem_append.mp member with old | new
      · exact p.reports c old own
      · obtain rfl := List.mem_singleton.mp new
        exact .inl rfl

/-- Filing a report keeps every bound on the periods. -/
theorem Sound.filed_bounds {w filed : World} {call : ℕ} {success : Bool} (sound : Sound w)
    (h : w.file call success = some filed) :
    (∀ c ∈ filed.calls, ∀ p, c.admitted = some p → p ≤ w.period) ∧
      (∀ c ∈ filed.calls, ∀ r, c.report = some r → ∀ p, r.during = some p → p ≤ w.period) := by
  obtain ⟨admitted, found, rfl⟩ := file_eq h
  have member := List.mem_of_getElem? found
  constructor
  · intro c inside p own
    rcases List.mem_or_eq_of_mem_set inside with old | rfl
    · exact sound.admittedLe c old p own
    · exact sound.admittedLe _ member p own
  · intro c inside r report p during
    rcases List.mem_or_eq_of_mem_set inside with old | rfl
    · exact sound.duringLe c old r report p during
    · simp only [Option.some.injEq] at report
      subst report
      simp only [World.during] at during
      split_ifs at during
      exact (Option.some.inj during).ge

/-- Filing a success in a half-open period adds one to its successes and nothing to its
admissions. -/
theorem filed_probing {w filed : World} {call : ℕ} (h : w.file call true = some filed)
    (half : w.breaker.state = .halfOpen) (probing : Probing w) :
    filed.calls.countP (admittedIn w.period) = w.breaker.halfOpenCalls.toNat ∧
      filed.calls.countP (succeededIn w.period) = w.breaker.successCount.toNat + 1 ∧
      ∀ c ∈ filed.calls, c.admitted = some w.period →
        c.report = none ∨ c.report = some ⟨true, some w.period⟩ := by
  obtain ⟨admitted, found, rfl⟩ := file_eq h
  obtain ⟨bound, value⟩ := List.getElem?_eq_some_iff.mp found
  have during : w.during = some w.period := by simp only [World.during, half, if_true]
  rw [during]
  refine ⟨?_, ?_, ?_⟩
  · rw [List.countP_set bound, value, probing.admitted]
    have pos : admittedIn w.period ⟨admitted, none⟩ = true →
        0 < w.calls.countP (admittedIn w.period) := fun own =>
      List.countP_pos_iff.mpr ⟨_, List.mem_of_getElem? found, own⟩
    simp only [admittedIn] at pos ⊢
    by_cases own : (admitted == some w.period) = true
    · have := pos own
      simp only [own, if_true]
      omega
    · simp only [own]
      rfl
  · rw [List.countP_set bound, value, probing.succeeded]
    simp [succeededIn]
  · intro c inside own
    rcases List.mem_or_eq_of_mem_set inside with old | rfl
    · exact probing.reports c old own
    · exact .inr rfl

theorem Sound.success {w w' : World} {call : ℕ} (sound : Sound w)
    (h : w.step (.success call) = some w') : Sound w' := by
  obtain ⟨filed, found, rfl⟩ := step_success h
  obtain ⟨admittedLe, duringLe⟩ := sound.filed_bounds found
  obtain ⟨_, _, shape⟩ := file_eq found
  have period : filed.period = w.period := by rw [shape]
  have breaker : filed.breaker = w.breaker := by rw [shape]
  cases state : w.breaker.state with
  | closed =>
    rw [advance_period (.inl (by simp [breaker, state]))]
    refine ⟨by rwa [← period] at admittedLe, by rwa [← period] at duringLe, ?_, ?_⟩
    · simp [CircuitBreaker.recordSuccess, state]
    · simp [CircuitBreaker.recordSuccess, state]
  | opened =>
    rw [advance_period (.inr (by simp [CircuitBreaker.recordSuccess, state]))]
    refine ⟨by rwa [← period] at admittedLe, by rwa [← period] at duringLe, ?_, ?_⟩
    · simpa [CircuitBreaker.recordSuccess, state] using sound.openedAt state
    · simp [CircuitBreaker.recordSuccess, state]
  | halfOpen =>
    obtain ⟨admitted, succeeded, reports⟩ := filed_probing found state (sound.probing state)
    have below := (sound.probing state).below
    have bound := UInt32.toNat_lt w.breaker.config.successThreshold
    have next : (w.breaker.successCount + 1).toNat = w.breaker.successCount.toNat + 1 := by
      rw [UInt32.toNat_add, UInt32.toNat_one]
      omega
    rw [advance_period (.inl (by simp [breaker, state]))]
    refine ⟨by rwa [← period] at admittedLe, by rwa [← period] at duringLe, ?_, ?_⟩
    · simp only [CircuitBreaker.recordSuccess, state]
      split_ifs <;> simp
    · simp only [CircuitBreaker.recordSuccess, state]
      split_ifs with closes
      · simp
      · intro _
        have short : ¬ w.breaker.config.successThreshold.toNat ≤
            (w.breaker.successCount + 1).toNat := closes
        refine ⟨?_, ?_, ?_, by rwa [← period] at reports⟩
        · rw [period, admitted]
        · rw [period, succeeded, ← next]
        · simp only
          omega

theorem Sound.failure {w w' : World} {call : ℕ} {failedAt openedAt : ℤ} (sound : Sound w)
    (h : w.step (.failure call failedAt openedAt) = some w') : Sound w' := by
  obtain ⟨filed, found, rfl⟩ := step_failure h
  obtain ⟨admittedLe, duringLe⟩ := sound.filed_bounds found
  obtain ⟨_, _, shape⟩ := file_eq found
  have period : filed.period = w.period := by rw [shape]
  have leaves : (w.breaker.recordFailure failedAt openedAt).state ≠ .halfOpen := by
    cases state : w.breaker.state <;> simp only [CircuitBreaker.recordFailure, state]
    · split_ifs <;> simp
    · simp
    · simp
  rw [advance_period (.inr leaves)]
  refine ⟨by rwa [← period] at admittedLe, by rwa [← period] at duringLe, ?_,
    fun half => absurd half leaves⟩
  cases state : w.breaker.state <;> simp only [CircuitBreaker.recordFailure, state]
  · split_ifs <;> simp
  · simpa using sound.openedAt state
  · simp

theorem Sound.step {w w' : World} {e : Event} (sound : Sound w) (h : w.step e = some w') :
    Sound w' := by
  cases e with
  | allow now => exact sound.allow h
  | success call => exact sound.success h
  | failure call failedAt openedAt => exact sound.failure h

theorem step_config {w w' : World} {e : Event} (h : w.step e = some w') :
    w'.breaker.config = w.breaker.config := by
  cases e with
  | allow now =>
    obtain ⟨mid, checked, rfl | ⟨_, rfl⟩ | ⟨_, _, rfl⟩⟩ := step_allow h <;>
      exact (checkTimeout_config checked : mid.config = w.breaker.config)
  | success call =>
    obtain ⟨_, _, rfl⟩ := step_success h
    exact recordSuccess_config
  | failure call failedAt openedAt =>
    obtain ⟨_, _, rfl⟩ := step_failure h
    exact recordFailure_config

theorem run_config {w w' : World} {es : List Event} (run : Run (ofPartial World.step) w es w') :
    w'.breaker.config = w.breaker.config :=
  run.invariant (I := fun v => v.breaker.config = w.breaker.config)
    (fun _ _ _ held step => (step_config step).trans held) rfl

theorem run_sound {w w' : World} {es : List Event} (run : Run (ofPartial World.step) w es w')
    (sound : Sound w) : Sound w' :=
  run.invariant (I := Sound) (fun _ _ _ held step => held.step step) sound

end BusinessOs.Core.RateLimit.BreakerCalls
