/- Source: rust/src/security.rs (is_within_replay_window)
   digest: The replay window against the exact distance between the timestamp and the clock. -/

import BusinessOs.Core.Security

set_option autoImplicit false
set_option relaxedAutoImplicit false

namespace BusinessOs.Core.ReplayWindow

open BusinessOs.Lib.Chrono BusinessOs.Lib.MachineInt BusinessOs.Core.Security

/-- The answer over the mathematical integers. -/
def exactAnswer (service : SecurityService) (now : ℤ) (timestamp : String) :
    Except SecurityError Bool :=
  match parseI64 timestamp with
  | none => .error .expiredRequest
  | some ts => .ok (decide (|now - ts| ≤ service.replayWindowSecs))

/-- A timestamp that is this far from the clock is answered exactly. -/
def Answered (replayWindowSecs distance : ℤ) : Overflow → Prop
  | .checked => distance < 2 ^ 63
  | .wrapping =>
    distance < 2 ^ 63 ∨ (distance ≠ 2 ^ 63 ∧ replayWindowSecs + distance < 2 ^ 64)

section Window

variable {service : SecurityService} {mode : Overflow} {now ts : ℤ} {timestamp : String}

theorem isWithinReplayWindow_unparsed (unparsed : parseI64 timestamp = none) :
    service.isWithinReplayWindow mode now timestamp = .ok (.error .expiredRequest) := by
  rw [SecurityService.isWithinReplayWindow, unparsed]
  rfl

theorem isWithinReplayWindow_parsed (parsed : parseI64 timestamp = some ts) :
    service.isWithinReplayWindow mode now timestamp =
      (distance mode now ts).map fun diff => .ok (decide (diff ≤ service.replayWindowSecs)) := by
  simp only [SecurityService.isWithinReplayWindow, parsed, distance]
  cases subI64 mode now ts with
  | error p => rfl
  | ok age =>
    simp only [ok_bind]
    cases absI64 mode age <;> rfl

/-- Which distances are answered exactly depends on the overflow mode. -/
theorem answered_iff (window : 0 ≤ service.replayWindowSecs ∧ InRange service.replayWindowSecs)
    (clock : InRange now) (parsed : parseI64 timestamp = some ts) :
    service.isWithinReplayWindow mode now timestamp =
        .ok (.ok (decide (|now - ts| ≤ service.replayWindowSecs))) ↔
      Answered service.replayWindowSecs |now - ts| mode := by
  obtain ⟨nonnegative, _, bound⟩ := window
  rw [isWithinReplayWindow_parsed parsed]
  rcases lt_or_ge |now - ts| (2 ^ 63) with near | far
  · have answered : Answered service.replayWindowSecs |now - ts| mode := by
      cases mode with
      | checked => exact near
      | wrapping => exact .inl near
    rw [distance_near near]
    exact iff_of_true rfl answered
  · cases mode with
    | checked =>
      rw [distance_checked_far far]
      exact iff_of_false (fun same => nomatch same) (not_lt.mpr far)
    | wrapping =>
      have outside : ¬|now - ts| ≤ service.replayWindowSecs := by omega
      rcases far.eq_or_lt with half | beyond
      · -- the least integer is below every window
        have inside : (-2 ^ 63 : ℤ) ≤ service.replayWindowSecs := by omega
        rw [distance_wrapping_half half.symm, Except.map, decide_eq_true inside,
          decide_eq_false outside]
        exact iff_of_false (by simp) (by grind [Answered])
      · rw [distance_wrapping_far clock (parseI64_eq parsed).2 beyond, Except.map,
          decide_eq_false outside, Except.ok.injEq, Except.ok.injEq, decide_eq_false_iff_not]
        grind [Answered]

end Window

/-- The window is exact for precisely the timestamps whose distance from the clock fits an `i64`,
and in a build that wraps also for some of those beyond it. -/
theorem replay_window_exact_iff (service : SecurityService) (now : ℤ) (timestamp : String)
    (window : 0 ≤ service.replayWindowSecs ∧ InRange service.replayWindowSecs)
    (clock : InRange now) :
    ((∀ mode, service.isWithinReplayWindow mode now timestamp =
        .ok (exactAnswer service now timestamp)) ↔
      ∀ ts, parseI64 timestamp = some ts → |now - ts| < 2 ^ 63) ∧
    ∀ mode, service.isWithinReplayWindow mode now timestamp =
        .ok (exactAnswer service now timestamp) ↔
      ∀ ts, parseI64 timestamp = some ts → Answered service.replayWindowSecs |now - ts| mode := by
  have single : ∀ mode, service.isWithinReplayWindow mode now timestamp =
        .ok (exactAnswer service now timestamp) ↔
      ∀ ts, parseI64 timestamp = some ts →
        Answered service.replayWindowSecs |now - ts| mode := by
    intro mode
    cases parsed : parseI64 timestamp with
    | none =>
      rw [isWithinReplayWindow_unparsed parsed, exactAnswer, parsed]
      exact iff_of_true rfl (fun ts impossible => nomatch impossible)
    | some ts =>
      rw [exactAnswer, parsed, answered_iff window clock parsed]
      simp
  refine ⟨⟨?_, ?_⟩, single⟩
  · intro exact ts parsed
    exact (single .checked).mp (exact .checked) ts parsed
  · intro near mode
    refine (single mode).mpr fun ts parsed => ?_
    cases mode with
    | checked => exact near ts parsed
    | wrapping => exact .inl (near ts parsed)

/-- A request from a minute ago, seen under the window of five minutes. -/
theorem replay_window_exact_minute :
    let service : SecurityService :=
      { adminApiKeyHash := "", slackSigningSecret := none, replayWindowSecs := 300 }
    service.isWithinReplayWindow .checked 1700000060 "1700000000" = .ok (.ok true) ∧
      service.isWithinReplayWindow .wrapping 1700000060 "1700000000" = .ok (.ok true) := by
  have near : ∀ ts, parseI64 "1700000000" = some ts → |1700000060 - ts| < 2 ^ 63 := by
    intro ts parsed
    obtain rfl : 1700000000 = ts := Option.some.inj (parsed ▸ (by decide +kernel))
    decide
  have exact := (replay_window_exact_iff
    { adminApiKeyHash := "", slackSigningSecret := none, replayWindowSecs := 300 } 1700000060
    "1700000000" (by decide) (by decide)).1.mpr near
  exact ⟨exact .checked, exact .wrapping⟩

/-- A timestamp half a turn in the past: a build that wraps accepts it, the other one panics. -/
theorem replay_window_wrapped :
    let service : SecurityService :=
      { adminApiKeyHash := "", slackSigningSecret := none, replayWindowSecs := 300 }
    service.isWithinReplayWindow .wrapping 1700000000 "-9223372035154775808" = .ok (.ok true) ∧
      service.isWithinReplayWindow .checked 1700000000 "-9223372035154775808" =
        .error .overflow ∧
      exactAnswer service 1700000000 "-9223372035154775808" = .ok false := by
  decide +kernel

end BusinessOs.Core.ReplayWindow
