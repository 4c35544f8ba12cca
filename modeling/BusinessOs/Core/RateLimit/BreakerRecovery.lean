/- Source: rust/src/rate_limit.rs (CircuitBreaker)
   digest: A breaker recovers from every idle state exactly when a period admits enough probes. -/

import BusinessOs.Core.RateLimit.BreakerCalls

set_option autoImplicit false
set_option relaxedAutoImplicit false

namespace BusinessOs.Core.RateLimit.BreakerRecovery

open BusinessOs.Lib.Chrono BusinessOs.Lib.Execution
open BusinessOs.Core.RateLimit.Breaker BusinessOs.Core.RateLimit.BreakerCalls

/-- A request at `now` is let through. -/
def Admits (breaker : CircuitBreaker) (now : ℤ) : Prop :=
  ∃ next, breaker.allowRequest now = .ok (next, .ok ())

/-- From some delay on, a request is let through. -/
def Recovers (w : World) : Prop :=
  ∃ delay : ℤ, 0 ≤ delay ∧ ∀ now, w.clock + delay ≤ now → Admits w.breaker now

/-- A request at any time is refused and leaves the breaker as it is. -/
def Wedged (w : World) : Prop :=
  ∀ now, w.breaker.allowRequest now =
    .ok (w.breaker, .error (.halfOpenExhausted w.breaker.name))

/-- One step of a run whose clock does not go back. -/
def Step : World → Event → World → Prop := Guarded Forward (ofPartial World.step)

/-- States that runs of a new breaker with this configuration reach. -/
def Reached (config : CircuitBreakerConfig) : World → Prop :=
  Reachable (fun w => ∃ name clock, w = World.start name config clock) Step

theorem reached_sound {config : CircuitBreakerConfig} {w : World} (h : Reached config w) :
    Sound w ∧ w.breaker.config = config := by
  obtain ⟨_, es, ⟨name, clock, rfl⟩, run⟩ := h
  exact ⟨run_sound run.unguard (start_sound name config clock), run_config run.unguard⟩

section Admission

variable {breaker : CircuitBreaker} {now : ℤ}

theorem admits_closed (closed : breaker.state = .closed) :
    breaker.allowRequest now = .ok (breaker, .ok ()) := by
  unfold CircuitBreaker.allowRequest
  rw [checkTimeout_of_ne_opened (by simp [closed]), ok_bind]
  simp [closed]

theorem admits_room (half : breaker.state = .halfOpen)
    (room : breaker.halfOpenCalls < breaker.config.halfOpenMaxCalls) :
    breaker.allowRequest now =
      .ok ({ breaker with halfOpenCalls := breaker.halfOpenCalls + 1 }, .ok ()) := by
  unfold CircuitBreaker.allowRequest
  rw [checkTimeout_of_ne_opened (by simp [half]), ok_bind]
  simp [half, room]

theorem refuses_full (half : breaker.state = .halfOpen)
    (full : ¬ breaker.halfOpenCalls < breaker.config.halfOpenMaxCalls) :
    breaker.allowRequest now = .ok (breaker, .error (.halfOpenExhausted breaker.name)) := by
  unfold CircuitBreaker.allowRequest
  rw [checkTimeout_of_ne_opened (by simp [half]), ok_bind]
  simp [half, full]

/-- Once the timeout has passed, a request is answered as by the half-open breaker. -/
theorem allowRequest_due {openedAt : ℤ} (opened : breaker.state = .opened)
    (found : breaker.openedAt = some openedAt)
    (range : SecondsInRange breaker.config.timeoutSecs.toInt)
    (due : openedAt + breaker.config.timeoutSecs.toInt * 1000000000 ≤ now) :
    breaker.allowRequest now = breaker.probing.allowRequest now := by
  have half : breaker.probing.state ≠ .opened := by simp [CircuitBreaker.probing]
  unfold CircuitBreaker.allowRequest
  rw [checkTimeout_due opened found range due, checkTimeout_of_ne_opened half]

end Admission

/-- With every call reported, a half-open breaker has room for one more probe. -/
theorem idle_room {w : World} (sound : Sound w) (idle : w.Idle)
    (half : w.breaker.state = .halfOpen)
    (enough : max 1 w.breaker.config.successThreshold.toNat ≤
      w.breaker.config.halfOpenMaxCalls.toNat) :
    w.breaker.halfOpenCalls < w.breaker.config.halfOpenMaxCalls := by
  obtain ⟨admitted, succeeded, below, reports⟩ := sound.probing half
  have within : w.calls.countP (admittedIn w.period) ≤ w.calls.countP (succeededIn w.period) := by
    refine List.countP_mono_left fun c member own => ?_
    have own : c.admitted = some w.period := by simpa [admittedIn] using own
    rcases reports c member own with silent | success
    · exact absurd silent (idle c member)
    · simp [succeededIn, success]
  have less : w.breaker.halfOpenCalls.toNat < w.breaker.config.halfOpenMaxCalls.toNat := by omega
  exact less

theorem idle_recovers {w : World} (sound : Sound w) (idle : w.Idle)
    (range : SecondsInRange w.breaker.config.timeoutSecs.toInt)
    (enough : max 1 w.breaker.config.successThreshold.toNat ≤
      w.breaker.config.halfOpenMaxCalls.toNat) : Recovers w := by
  cases state : w.breaker.state with
  | closed => exact ⟨0, le_rfl, fun _ _ => ⟨_, admits_closed state⟩⟩
  | halfOpen =>
    exact ⟨0, le_rfl, fun _ _ => ⟨_, admits_room state (idle_room sound idle state enough)⟩⟩
  | opened =>
    obtain ⟨openedAt, found⟩ := Option.ne_none_iff_exists'.mp (sound.openedAt state)
    refine ⟨max 0 (openedAt + w.breaker.config.timeoutSecs.toInt * 1000000000 - w.clock),
      le_max_left _ _, fun now late => ?_⟩
    have room : w.breaker.probing.halfOpenCalls < w.breaker.probing.config.halfOpenMaxCalls := by
      have less : 0 < w.breaker.config.halfOpenMaxCalls.toNat := by omega
      exact less
    refine ⟨_, (allowRequest_due state found range (by omega)).trans (admits_room rfl room)⟩

/-! The converse: a run that exhausts a half-open period without closing the breaker. -/

theorem Reached.step {config : CircuitBreakerConfig} {w w' : World} (h : Reached config w)
    (e : Event) (forward : Forward w e) (step : w.step e = some w') : Reached config w' :=
  Reachable.step_right h ⟨forward, step⟩

/-- Filing the report of the call admitted last. -/
theorem file_last (w : World) (admitted : Option ℕ) (success : Bool) :
    World.file { w with calls := w.calls ++ [⟨admitted, none⟩] } w.calls.length success =
      some { w with calls := w.calls ++ [⟨admitted, some ⟨success, w.during⟩⟩] } := by
  simp [World.file, World.during]

section Rounds

variable {config : CircuitBreakerConfig} {w : World} {breaker : CircuitBreaker} {now : ℤ}
  (reached : Reached config w) (idle : w.Idle) (later : w.clock ≤ now)

include reached idle later

/-- A refused request leaves what the breaker became. -/
theorem refused_round {e : CircuitBreakerError}
    (asked : w.breaker.allowRequest now = .ok (breaker, .error e)) :
    ∃ w', Reached config w' ∧ w'.Idle ∧ w'.breaker = breaker := by
  refine ⟨w.advance breaker now, reached.step (.allow now) later ?_, idle, rfl⟩
  simp only [World.step, asked]

/-- A request that is let through and at once reports success. -/
theorem success_round (asked : w.breaker.allowRequest now = .ok (breaker, .ok ())) :
    ∃ w', Reached config w' ∧ w'.Idle ∧ w'.breaker = breaker.recordSuccess ∧
      w'.clock = now := by
  obtain ⟨v, hv⟩ : ∃ v, v = w.advance breaker now := ⟨_, rfl⟩
  have calls : v.calls = w.calls := by rw [hv]; rfl
  have own : v.breaker = breaker := by rw [hv]; rfl
  have clock : v.clock = now := by rw [hv]; rfl
  have admitted : w.step (.allow now) = some { v with calls := v.calls ++ [⟨v.during, none⟩] } := by
    simp only [World.step, asked, ← hv, calls]
  refine ⟨({ v with calls := v.calls ++ [⟨v.during, some ⟨true, v.during⟩⟩] } : World).advance
    v.breaker.recordSuccess v.clock,
    (reached.step (.allow now) later admitted).step (.success v.calls.length) trivial ?_, ?_,
    by rw [own]; rfl, clock⟩
  · simp only [World.step, file_last, Option.bind_eq_bind, Option.bind_some]
  · intro c member
    rcases List.mem_append.mp member with old | new
    · exact idle c (calls ▸ old)
    · simp [List.mem_singleton.mp new]

/-- A request that is let through and at once reports failure. -/
theorem failure_round (asked : w.breaker.allowRequest now = .ok (breaker, .ok ())) :
    ∃ w', Reached config w' ∧ w'.Idle ∧ w'.breaker = breaker.recordFailure now now ∧
      w'.clock = now := by
  obtain ⟨v, hv⟩ : ∃ v, v = w.advance breaker now := ⟨_, rfl⟩
  have calls : v.calls = w.calls := by rw [hv]; rfl
  have own : v.breaker = breaker := by rw [hv]; rfl
  have clock : v.clock = now := by rw [hv]; rfl
  have admitted : w.step (.allow now) = some { v with calls := v.calls ++ [⟨v.during, none⟩] } := by
    simp only [World.step, asked, ← hv, calls]
  refine ⟨({ v with calls := v.calls ++ [⟨v.during, some ⟨false, v.during⟩⟩] } : World).advance
    (v.breaker.recordFailure now now) now,
    (reached.step (.allow now) later admitted).step (.failure v.calls.length now now)
      ⟨clock.le, le_rfl⟩ ?_, ?_, by rw [own]; rfl, rfl⟩
  · simp only [World.step, file_last, Option.bind_eq_bind, Option.bind_some]
  · intro c member
    rcases List.mem_append.mp member with old | new
    · exact idle c (calls ▸ old)
    · simp [List.mem_singleton.mp new]

end Rounds

/-- Failing calls, one after the other, open a closed breaker. -/
theorem opens {config : CircuitBreakerConfig} (n : ℕ) {w : World} (reached : Reached config w)
    (idle : w.Idle) (closed : w.breaker.state = .closed)
    (count : max 1 config.failureThreshold.toNat = w.breaker.failureCount.toNat + n + 1) :
    ∃ w', Reached config w' ∧ w'.Idle ∧ w'.breaker.state = .opened := by
  induction n generalizing w with
  | zero =>
    obtain ⟨w', reached', idle', breaker, _⟩ :=
      failure_round reached idle le_rfl (admits_closed closed)
    have same := (reached_sound reached).2
    have bound := UInt32.toNat_lt config.failureThreshold
    have enough : config.failureThreshold ≤ w.breaker.failureCount + 1 := by
      rw [UInt32.le_iff_toNat_le, UInt32.toNat_add, UInt32.toNat_one]
      omega
    refine ⟨w', reached', idle', ?_⟩
    simp [breaker, CircuitBreaker.recordFailure, closed, same, enough]
  | succ n ih =>
    obtain ⟨w', reached', idle', breaker, _⟩ :=
      failure_round reached idle le_rfl (admits_closed closed)
    have same := (reached_sound reached).2
    have bound := UInt32.toNat_lt config.failureThreshold
    have next : (w.breaker.failureCount + 1).toNat = w.breaker.failureCount.toNat + 1 := by
      rw [UInt32.toNat_add, UInt32.toNat_one]
      omega
    have short : ¬ config.failureThreshold ≤ w.breaker.failureCount + 1 := by
      rw [UInt32.le_iff_toNat_le, next]
      omega
    have after : w'.breaker = { w.breaker with
        lastFailure := some w.clock, failureCount := w.breaker.failureCount + 1 } := by
      simp [breaker, CircuitBreaker.recordFailure, closed, same, short]
    refine ih reached' idle' (by rw [after]; exact closed) ?_
    rw [after]
    dsimp only
    omega

/-- Too few probes to reach the threshold: all of them succeed, and none is left. -/
theorem exhausts {config : CircuitBreakerConfig}
    (few : config.halfOpenMaxCalls.toNat < max 1 config.successThreshold.toNat) (n : ℕ)
    {w : World} (reached : Reached config w) (idle : w.Idle)
    (half : w.breaker.state = .halfOpen)
    (paired : w.breaker.successCount.toNat = w.breaker.halfOpenCalls.toNat)
    (left : config.halfOpenMaxCalls.toNat = w.breaker.halfOpenCalls.toNat + n) :
    ∃ w', Reached config w' ∧ w'.Idle ∧ Wedged w' := by
  have same := (reached_sound reached).2
  induction n generalizing w with
  | zero =>
    refine ⟨w, reached, idle, fun now => refuses_full half ?_⟩
    rw [same, UInt32.lt_iff_toNat_lt]
    omega
  | succ n ih =>
    have bound := UInt32.toNat_lt config.halfOpenMaxCalls
    have room : w.breaker.halfOpenCalls < w.breaker.config.halfOpenMaxCalls := by
      rw [same, UInt32.lt_iff_toNat_lt]
      omega
    obtain ⟨w', reached', idle', breaker, _⟩ :=
      success_round reached idle le_rfl (admits_room half room)
    have calls : (w.breaker.halfOpenCalls + 1).toNat = w.breaker.halfOpenCalls.toNat + 1 := by
      rw [UInt32.toNat_add, UInt32.toNat_one]
      omega
    have successes : (w.breaker.successCount + 1).toNat = w.breaker.successCount.toNat + 1 := by
      rw [UInt32.toNat_add, UInt32.toNat_one]
      omega
    have short : ¬ config.successThreshold ≤ w.breaker.successCount + 1 := by
      rw [UInt32.le_iff_toNat_le, successes]
      omega
    have after : w'.breaker = { w.breaker with
        halfOpenCalls := w.breaker.halfOpenCalls + 1
        successCount := w.breaker.successCount + 1 } := by
      simp [breaker, CircuitBreaker.recordSuccess, half, same, short]
    refine ih reached' idle' (by rw [after]; exact half) ?_ ?_ (reached_sound reached').2
    · rw [after]
      dsimp only
      omega
    · rw [after]
      dsimp only
      omega

/-- From an open breaker, the first request after the timeout leads into an exhausted period. -/
theorem opened_wedges {config : CircuitBreakerConfig}
    (range : SecondsInRange config.timeoutSecs.toInt)
    (few : config.halfOpenMaxCalls.toNat < max 1 config.successThreshold.toNat)
    {w : World} (reached : Reached config w) (idle : w.Idle)
    (opened : w.breaker.state = .opened) :
    ∃ w', Reached config w' ∧ w'.Idle ∧ Wedged w' := by
  obtain ⟨sound, same⟩ := reached_sound reached
  obtain ⟨openedAt, found⟩ := Option.ne_none_iff_exists'.mp (sound.openedAt opened)
  obtain ⟨now, later, due⟩ : ∃ now, w.clock ≤ now ∧
      openedAt + w.breaker.config.timeoutSecs.toInt * 1000000000 ≤ now :=
    ⟨max w.clock _, le_max_left _ _, le_max_right _ _⟩
  have asked := allowRequest_due opened found (same ▸ range) due
  by_cases room : w.breaker.probing.halfOpenCalls < w.breaker.probing.config.halfOpenMaxCalls
  · rw [admits_room rfl room] at asked
    have some_room : 0 < config.halfOpenMaxCalls.toNat := same ▸ room
    have short : ¬ config.successThreshold ≤ 1 := by
      rw [UInt32.le_iff_toNat_le, UInt32.toNat_one]
      omega
    obtain ⟨w', reached', idle', breaker, _⟩ := success_round reached idle later asked
    have after : w'.breaker = { w.breaker.probing with halfOpenCalls := 1, successCount := 1 } := by
      simp [breaker, CircuitBreaker.recordSuccess, CircuitBreaker.probing, same, short]
    exact exhausts few (config.halfOpenMaxCalls.toNat - 1) reached' idle'
      (by rw [after]; rfl) (by rw [after]) (by rw [after, UInt32.toNat_one]; omega)
  · rw [refuses_full rfl room] at asked
    obtain ⟨w', reached', idle', breaker⟩ := refused_round reached idle later asked
    refine exhausts few config.halfOpenMaxCalls.toNat reached' idle'
      (by rw [breaker]; rfl) (by rw [breaker]; rfl) (by rw [breaker]; simp [CircuitBreaker.probing])

theorem reaches_wedged {config : CircuitBreakerConfig}
    (range : SecondsInRange config.timeoutSecs.toInt)
    (few : config.halfOpenMaxCalls.toNat < max 1 config.successThreshold.toNat) :
    ∃ w, Reached config w ∧ w.Idle ∧ Wedged w := by
  have start : Reached config (World.start "" config 0) := ⟨_, [], ⟨"", 0, rfl⟩, .nil _⟩
  obtain ⟨w, reached, idle, opened⟩ := opens (max 1 config.failureThreshold.toNat - 1) start
    (by simp [World.Idle, World.start]) rfl
    (by simp [World.start, CircuitBreaker.new])
  exact opened_wedges range few reached idle opened

/-- Every idle reachable state recovers exactly when a half-open period admits as many calls as
closing takes; where it does not, some idle reachable state refuses for ever. -/
theorem recovers_iff (config : CircuitBreakerConfig)
    (range : SecondsInRange config.timeoutSecs.toInt) :
    ((∀ w, Reached config w → w.Idle → Recovers w) ↔
      max 1 config.successThreshold.toNat ≤ config.halfOpenMaxCalls.toNat) ∧
    ((∃ w, Reached config w ∧ w.Idle ∧ ∀ now, w.clock ≤ now → ¬ Admits w.breaker now) ↔
      config.halfOpenMaxCalls.toNat < max 1 config.successThreshold.toNat) := by
  have recovers : max 1 config.successThreshold.toNat ≤ config.halfOpenMaxCalls.toNat →
      ∀ w, Reached config w → w.Idle → Recovers w := by
    intro enough w reached idle
    obtain ⟨sound, rfl⟩ := reached_sound reached
    exact idle_recovers sound idle range enough
  have refuses : config.halfOpenMaxCalls.toNat < max 1 config.successThreshold.toNat →
      ∃ w, Reached config w ∧ w.Idle ∧ ∀ now, w.clock ≤ now → ¬ Admits w.breaker now := by
    intro few
    obtain ⟨w, reached, idle, wedged⟩ := reaches_wedged range few
    refine ⟨w, reached, idle, fun now _ ⟨next, admitted⟩ => ?_⟩
    simpa using (wedged now).symm.trans admitted
  have apart : (∀ w, Reached config w → w.Idle → Recovers w) →
      ¬ ∃ w, Reached config w ∧ w.Idle ∧ ∀ now, w.clock ≤ now → ¬ Admits w.breaker now := by
    rintro all ⟨w, reached, idle, refused⟩
    obtain ⟨delay, forward, admits⟩ := all w reached idle
    exact refused _ (by omega) (admits (w.clock + delay) le_rfl)
  constructor
  · refine ⟨fun all => ?_, recovers⟩
    by_contra few
    exact apart all (refuses (by omega))
  · refine ⟨fun stuck => ?_, refuses⟩
    by_contra enough
    exact apart (recovers (by omega)) stuck

theorem recovers_iff_default :
    (∀ w, Reached ⟨5, 3, 60, 3⟩ w → w.Idle → Recovers w) ↔ max 1 3 ≤ 3 :=
  (recovers_iff ⟨5, 3, 60, 3⟩ (by decide)).1

end BusinessOs.Core.RateLimit.BreakerRecovery
