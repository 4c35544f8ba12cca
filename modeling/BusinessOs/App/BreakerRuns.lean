/- Source: app/services/guardrails.py (CircuitBreakerService.check), app/agents/base.py
   digest: Checks of one integration from several sessions, and the calls that a window
     lets pass. -/

import BusinessOs.App.Breakers
import BusinessOs.Lib.Execution
import BusinessOs.Lib.Interleaving
import Mathlib.Data.Fintype.Basic

set_option autoImplicit false
set_option relaxedAutoImplicit false

namespace BusinessOs.App.BreakerRuns

open BusinessOs.Lib BusinessOs.Lib.Execution BusinessOs.Lib.Interleaving BusinessOs.Lib.UnitOfWork
open BusinessOs.Lib.Chrono BusinessOs.App.Models BusinessOs.App.Breakers

/-- Where a session's check stands. -/
inductive Phase
  | idle
  /-- The query found no row. -/
  | missing (now : ℤ)
  /-- The row as the check read or inserted it. -/
  | found (row : CircuitBreaker) (now : ℤ)
  /-- The breaker was opened and committed; its record is still to be written. -/
  | opened (breaker : BreakerCopy)
  deriving DecidableEq

/-- The committed rows, and the last clock reading of any check. -/
structure Shared where
  store : Store
  clock : ℤ
  deriving DecidableEq

abbrev World (P : Type) := Interleaving.World P Shared Phase

/-- Steps of a check, up to one commit each. -/
inductive Event (P : Type)
  | read (p : P) (now : ℤ)
  | insert (p : P)
  | refuse (p : P)
  | allow (p : P)
  | reject (p : P)
  | record (p : P)
  deriving DecidableEq

section Step

variable {P : Type} [DecidableEq P] (integration : String) (limitPerMinute : ℤ)

def step (s : World P) : Event P → Option (World P)
  | .read p now =>
    match s.phase p with
    | .idle =>
      if s.db.clock ≤ now then
        let db := { s.db with clock := now }
        match s.db.store.breaker integration with
        | some row => some (s.move p db (.found row now))
        | none => some (s.move p db (.missing now))
      else none
    | _ => none
  | .insert p =>
    match s.phase p with
    | .missing now =>
      match s.db.store.breaker integration with
      -- The column is unique: the commit fails, and the check raises.
      | some _ => some (s.move p s.db .idle)
      | none =>
        let row := CircuitBreaker.new integration limitPerMinute now
        some (s.move p { s.db with store := s.db.store.insert row } (.found row now))
    | _ => none
  | .refuse p =>
    match s.phase p with
    | .found row now =>
      if refuses (.load row) now then some (s.move p s.db .idle) else none
    | _ => none
  -- The commit of a check that then returns.
  | .allow p =>
    match s.phase p with
    | .found row now =>
      let breaker := charge (.load row) limitPerMinute now
      if refuses (.load row) now || exceeded breaker then none
      else some (s.move p { s.db with store := breaker.commit s.db.store } .idle)
    | _ => none
  | .reject p =>
    match s.phase p with
    | .found row now =>
      let breaker := charge (.load row) limitPerMinute now
      if refuses (.load row) now || !exceeded breaker then none
      else some (s.move p { s.db with store := breaker.commit s.db.store } (.opened breaker))
    | _ => none
  -- The record's commit; the check then raises.
  | .record p =>
    match s.phase p with
    | .opened breaker =>
      let store := { s.db.store with
        auditLogs := s.db.store.auditLogs ++ [openedRecord breaker] }
      some (s.move p { s.db with store } .idle)
    | _ => none

/-- Checks that returned. -/
def returns (es : List (Event P)) : ℕ :=
  es.countP fun e => match e with | .allow _ => true | _ => false

/-- A check that returns commits over the row that it read. -/
def Undisturbed (s : World P) : Event P → Prop
  | .allow p =>
    match s.phase p with
    | .found row _ => s.db.store.breaker integration = some row
    | _ => True
  | _ => True

/-- No reset: a row that exists keeps the start of its window. -/
def KeepsWindow (s t : World P) : Prop :=
  ∀ row ∈ s.db.store.breaker integration, ∀ next ∈ t.db.store.breaker integration,
    next.windowStartedAt = row.windowStartedAt

instance (s t : World P) : Decidable (KeepsWindow integration s t) :=
  inferInstanceAs (Decidable (∀ row ∈ _, ∀ next ∈ _, _))

/-- Steps of `R` inside one window. -/
def InWindow (R : World P → Event P → World P → Prop) : World P → Event P → World P → Prop :=
  fun s e t => R s e t ∧ KeepsWindow integration s t

/-- Before any check, with a counter that is not negative. -/
structure Initial (s : World P) : Prop where
  idle : ∀ p, s.phase p = .idle
  counter : ∀ row, s.db.store.breaker integration = some row → 0 ≤ row.callsThisWindow

end Step

variable {P : Type} [DecidableEq P] {integration : String} {limitPerMinute : ℤ}
variable {s t u : World P} {e : Event P}

/-- What a step does to the stored row, and to the row that a session holds. -/
inductive Cause (integration : String) (limitPerMinute : ℤ) (s : World P) :
    Event P → World P → Prop
  | read {p : P} {row : CircuitBreaker} {now : ℤ} {db : Shared}
      (stored : s.db.store.breaker integration = some row) (same : db.store = s.db.store) :
      Cause integration limitPerMinute s (.read p now) (s.move p db (.found row now))
  | insert {p : P} {now : ℤ} (stored : s.db.store.breaker integration = none) :
      Cause integration limitPerMinute s (.insert p) (s.move p
        { s.db with store := s.db.store.insert (.new integration limitPerMinute now) }
        (.found (.new integration limitPerMinute now) now))
  | allow {p : P} {row : CircuitBreaker} {now : ℤ} (at_ : s.phase p = .found row now)
      (within : row.counted now ≤ limitPerMinute) :
      Cause integration limitPerMinute s (.allow p) (s.move p
        { s.db with store := (charge (.load row) limitPerMinute now).commit s.db.store } .idle)
  | reject {p : P} {row : CircuitBreaker} {now : ℤ} (at_ : s.phase p = .found row now)
      (above : limitPerMinute < row.counted now) :
      Cause integration limitPerMinute s (.reject p) (s.move p
        { s.db with store := (charge (.load row) limitPerMinute now).commit s.db.store }
        (.opened (charge (.load row) limitPerMinute now)))
  /-- The stored row stays, and the session holds none. -/
  | rest {p : P} {e : Event P} {db : Shared} {phase : Phase} (other : ∀ q, e ≠ .allow q)
      (same : db.store.circuitBreakers = s.db.store.circuitBreakers)
      (holds : ∀ row now, phase ≠ .found row now) :
      Cause integration limitPerMinute s e (s.move p db phase)

theorem step_cause (h : step integration limitPerMinute s e = some t) :
    Cause integration limitPerMinute s e t := by
  cases e with
  | read p now =>
    cases at_ : s.phase p with
    | idle =>
      by_cases later : s.db.clock ≤ now
      · cases stored : s.db.store.breaker integration with
        | none =>
          simp only [step, at_, later, if_true, stored, Option.some.injEq] at h
          subst h
          exact .rest (by simp) rfl (by simp)
        | some row =>
          simp only [step, at_, later, if_true, stored, Option.some.injEq] at h
          subst h
          exact .read stored rfl
      · simp [step, at_, later] at h
    | _ => simp [step, at_] at h
  | insert p =>
    cases at_ : s.phase p with
    | missing now =>
      cases stored : s.db.store.breaker integration with
      | none =>
        simp only [step, at_, stored, Option.some.injEq] at h
        subst h
        exact .insert stored
      | some row =>
        simp only [step, at_, stored, Option.some.injEq] at h
        subst h
        exact .rest (by simp) rfl (by simp)
    | _ => simp [step, at_] at h
  | refuse p =>
    cases at_ : s.phase p with
    | found row now =>
      by_cases still : refuses (.load row) now = true
      · simp only [step, at_, still, if_true, Option.some.injEq] at h
        subst h
        exact .rest (by simp) rfl (by simp)
      · simp [step, at_, still] at h
    | _ => simp [step, at_] at h
  | allow p =>
    cases at_ : s.phase p with
    | found row now =>
      by_cases above : limitPerMinute < row.counted now
      · simp [step, at_, exceeded_charge.mpr above] at h
      · cases still : refuses (.load row) now with
        | true => simp [step, at_, still] at h
        | false =>
          have within := mt exceeded_charge.mp above
          simp only [step, at_, still, within, Bool.or_self, Bool.false_eq_true, if_false,
            Option.some.injEq] at h
          subst h
          exact .allow at_ (not_lt.mp above)
    | _ => simp [step, at_] at h
  | reject p =>
    cases at_ : s.phase p with
    | found row now =>
      by_cases above : limitPerMinute < row.counted now
      · cases still : refuses (.load row) now with
        | true => simp [step, at_, still] at h
        | false =>
          simp [step, at_, still, exceeded_charge.mpr above] at h
          subst h
          exact .reject at_ above
      · simp [step, at_, mt exceeded_charge.mp above] at h
    | _ => simp [step, at_] at h
  | record p =>
    cases at_ : s.phase p with
    | opened breaker =>
      simp only [step, at_, Option.some.injEq] at h
      subst h
      exact .rest (by simp) rfl (by simp)
    | _ => simp [step, at_] at h

/-- A row that is the integration's, with a counter that is not negative. -/
def Fit (integration : String) (row : CircuitBreaker) : Prop :=
  row.integration = integration ∧ 0 ≤ row.callsThisWindow

/-- The row that a check holds is fit. -/
def Phase.Fit (integration : String) : Phase → Prop
  | .found row _ => BreakerRuns.Fit integration row
  | _ => True

/-- Every row that is stored, or held by a check, is fit. -/
structure Sound (integration : String) (s : World P) : Prop where
  stored : ∀ row, s.db.store.breaker integration = some row → Fit integration row
  held : ∀ p, (s.phase p).Fit integration

omit [DecidableEq P] in
theorem Initial.sound (start : Initial integration s) : Sound integration s := by
  refine ⟨fun row stored => ⟨(Table.get_mem stored).2, start.counter row stored⟩, fun p => ?_⟩
  rw [start.idle p]
  trivial

theorem counted_pos {row : CircuitBreaker} (now : ℤ) (nonneg : 0 ≤ row.callsThisWindow) :
    1 ≤ row.counted now := by
  unfold CircuitBreaker.counted
  split_ifs <;> omega

/-- The stored row after the commit of a charged copy. -/
theorem commit_stored {row : CircuitBreaker} {now : ℤ} (named : row.integration = integration)
    (store : Store) :
    ((charge (.load row) limitPerMinute now).commit store).breaker integration =
      (store.breaker integration).map (charge (.load row) limitPerMinute now).flush := by
  have own := commit_breaker store (charge (.load row) limitPerMinute now)
  rw [charge_integration, named] at own
  exact own

/-- A counter that the copy did not change is not written. -/
theorem flush_counter {row stored : CircuitBreaker} {now : ℤ} :
    ((charge (.load row) limitPerMinute now).flush stored).callsThisWindow =
      if row.counted now = row.callsThisWindow then stored.callsThisWindow
      else row.counted now := by
  rw [charge_load]
  rfl

theorem flush_counter_nonneg {row stored : CircuitBreaker} {now : ℤ}
    (held : 0 ≤ row.callsThisWindow) (counter : 0 ≤ stored.callsThisWindow) :
    0 ≤ ((charge (.load row) limitPerMinute now).flush stored).callsThisWindow := by
  have counted := counted_pos now held
  rw [flush_counter]
  split_ifs <;> omega

theorem breaker_congr {store store' : Store}
    (same : store'.circuitBreakers = store.circuitBreakers) :
    store'.breaker integration = store.breaker integration := by
  unfold Store.breaker
  rw [same]

/-- A charged copy leaves a fit row fit. -/
theorem Fit.flush {row stored : CircuitBreaker} {now : ℤ} (held : Fit integration row)
    (fit : Fit integration stored) :
    Fit integration ((charge (.load row) limitPerMinute now).flush stored) :=
  ⟨fit.1, flush_counter_nonneg held.2 fit.2⟩

omit [DecidableEq P] in
theorem Sound.committed {row : CircuitBreaker} {now : ℤ} (sound : Sound integration s)
    (held : Fit integration row) (next : CircuitBreaker)
    (after : ((charge (.load row) limitPerMinute now).commit s.db.store).breaker integration =
      some next) : Fit integration next := by
  rw [commit_stored held.1] at after
  obtain ⟨row', stored, rfl⟩ := Option.map_eq_some_iff.mp after
  exact held.flush (sound.stored row' stored)

theorem Sound.step (sound : Sound integration s)
    (cause : Cause integration limitPerMinute s e t) : Sound integration t := by
  cases cause with
  | @read p row now db stored same =>
    refine ⟨fun r after => ?_, ?_⟩
    · refine sound.stored r ?_
      rw [← same]
      exact after
    · exact forall_move (sound.stored row stored) fun q _ => sound.held q
  | @insert p now none_ =>
    have fit : Fit integration (.new integration limitPerMinute now) := ⟨rfl, le_rfl⟩
    refine ⟨fun r after => ?_, forall_move fit fun q _ => sound.held q⟩
    obtain rfl := Option.some.inj ((breaker_insert _ none_).symm.trans after)
    exact fit
  | @allow p row now at_ within =>
    have held := sound.held p
    rw [at_] at held
    exact ⟨sound.committed held, forall_move trivial fun q _ => sound.held q⟩
  | @reject p row now at_ above =>
    have held := sound.held p
    rw [at_] at held
    exact ⟨sound.committed held, forall_move trivial fun q _ => sound.held q⟩
  | @rest p e db phase other same holds =>
    refine ⟨fun r after => ?_, forall_move ?_ fun q _ => sound.held q⟩
    · refine sound.stored r ?_
      rw [← breaker_congr same]
      exact after
    · cases phase with
      | found row now => exact absurd rfl (holds row now)
      | _ => trivial

/-- So many checks returned in a window: no more than the limit, and none that the counter has
not counted. -/
structure Tally (integration : String) (limitPerMinute : ℤ) (n : ℕ) (s : World P) : Prop where
  within : (n : ℤ) ≤ limitPerMinute
  counted : ∀ row, s.db.store.breaker integration = some row → (n : ℤ) ≤ row.callsThisWindow
  none : s.db.store.breaker integration = none → n = 0

omit [DecidableEq P] in
theorem Tally.congr {n : ℕ} (tally : Tally integration limitPerMinute n s)
    (same : t.db.store.breaker integration = s.db.store.breaker integration) :
    Tally integration limitPerMinute n t := by
  refine ⟨tally.within, ?_, ?_⟩
  · rw [same]
    exact tally.counted
  · rw [same]
    exact tally.none

/-- A charge counts one call more than the tally, unless the window starts again at the first. -/
theorem counted_more {row : CircuitBreaker} {now : ℤ} {n : ℕ} (fit : 0 ≤ row.callsThisWindow)
    (before : (n : ℤ) ≤ row.callsThisWindow)
    (kept : n = 0 ∨ (row.charged limitPerMinute now).windowStartedAt = row.windowStartedAt) :
    (n : ℤ) + 1 ≤ row.counted now := by
  have positive := counted_pos now fit
  rcases kept with rfl | start
  · simpa using positive
  · have running : ¬ row.windowStartedAt + minutes 1 ≤ now := by
      intro expired
      have renewed : (row.charged limitPerMinute now).windowStartedAt = now := if_pos expired
      unfold minutes at expired
      omega
    unfold CircuitBreaker.counted
    rw [if_neg running]
    omega

/-- One step, given that a counter is not lost and the window is not renewed under a tally. -/
theorem Tally.step {n : ℕ} (tally : Tally integration limitPerMinute n s)
    (sound : Sound integration s) (cause : Cause integration limitPerMinute s e t)
    (undisturbed : Undisturbed integration s e) (kept : n = 0 ∨ KeepsWindow integration s t) :
    Tally integration limitPerMinute (n + returns [e]) t := by
  have ⟨within, counted, none_⟩ := tally
  cases cause with
  | @read p row now db stored same =>
    have returned : returns [Event.read p now] = 0 := rfl
    rw [returned, Nat.add_zero]
    have unchanged : (s.move p db (.found row now)).db.store.breaker integration =
        s.db.store.breaker integration := congrArg (fun x => x.breaker integration) same
    exact tally.congr unchanged
  | @insert p now stored =>
    have returned : returns [Event.insert p] = 0 := rfl
    obtain rfl := none_ stored
    have inserted := breaker_insert (.new integration limitPerMinute now) stored
    rw [returned, Nat.add_zero]
    refine ⟨within, fun r after => ?_, fun _ => rfl⟩
    obtain rfl := Option.some.inj (inserted.symm.trans after)
    exact le_rfl
  | @allow p row now at_ below =>
    have returned : returns [Event.allow p] = 1 := rfl
    have stored : s.db.store.breaker integration = some row := by
      simpa only [Undisturbed, at_] using undisturbed
    have fit := sound.stored row stored
    have after : (s.move p { s.db with
        store := (charge (.load row) limitPerMinute now).commit s.db.store }
        .idle).db.store.breaker integration = some (row.charged limitPerMinute now) := by
      show Store.breaker (BreakerCopy.commit _ _) _ = _
      rw [commit_stored fit.1, stored, Option.map_some, charge_flush]
    have more := counted_more fit.2 (counted row stored)
      (kept.imp_right fun kept => kept row stored _ after)
    rw [returned]
    refine ⟨by push_cast; omega, fun r found => ?_, fun missing => ?_⟩
    · obtain rfl := Option.some.inj (after.symm.trans found)
      have counter : (row.charged limitPerMinute now).callsThisWindow = row.counted now := rfl
      push_cast
      omega
    · rw [after] at missing
      cases missing
  | @reject p row now at_ above =>
    have returned : returns [Event.reject p] = 0 := rfl
    have held := sound.held p
    rw [at_] at held
    rw [returned, Nat.add_zero]
    have after : (s.move p { s.db with
        store := (charge (.load row) limitPerMinute now).commit s.db.store }
        (.opened (charge (.load row) limitPerMinute now))).db.store.breaker integration =
        (s.db.store.breaker integration).map (charge (.load row) limitPerMinute now).flush :=
      commit_stored held.1 _
    refine ⟨within, fun r found => ?_, fun missing => ?_⟩
    · rw [after] at found
      obtain ⟨row', stored, rfl⟩ := Option.map_eq_some_iff.mp found
      have before := counted row' stored
      rw [flush_counter]
      split_ifs <;> omega
    · rw [after] at missing
      exact none_ (Option.map_eq_none_iff.mp missing)
  | @rest p e db phase other same holds =>
    have returned : returns [e] = 0 := by
      cases e with
      | allow q => exact absurd rfl (other q)
      | _ => rfl
    have unchanged : (s.move p db phase).db.store.breaker integration =
        s.db.store.breaker integration := breaker_congr same
    rw [returned, Nat.add_zero]
    exact tally.congr unchanged

omit [DecidableEq P] in
theorem returns_cons {es : List (Event P)} : returns (e :: es) = returns [e] + returns es := by
  unfold returns
  rw [List.countP_cons, List.countP_singleton]
  omega

/-- The steps in which no check that returns has been overtaken. -/
abbrev Serial (integration : String) (limitPerMinute : ℤ) :
    World P → Event P → World P → Prop :=
  Guarded (Undisturbed integration) (ofPartial (step integration limitPerMinute))

theorem Sound.run {es : List (Event P)} (sound : Sound integration s)
    (h : Run (Serial integration limitPerMinute) s es t) : Sound integration t :=
  h.invariant (fun _ _ _ before taken => before.step (step_cause taken.2)) sound

/-- Inside one window the tally grows with every check that returns. -/
theorem Tally.run {n : ℕ} {es : List (Event P)}
    (h : Run (InWindow integration (Serial integration limitPerMinute)) s es t)
    (tally : Tally integration limitPerMinute n s) (sound : Sound integration s) :
    Tally integration limitPerMinute (n + returns es) t := by
  induction h generalizing n with
  | nil s => exact tally
  | @cons s t z e es first _ ih =>
    obtain ⟨⟨undisturbed, taken⟩, kept⟩ := first
    have cause := step_cause taken
    rw [returns_cons, ← Nat.add_assoc]
    exact ih (tally.step sound cause undisturbed (.inr kept)) (sound.step cause)

/-- Where no check that returns was overtaken since it read the row, at most the limit of checks
return from one reset of the window until the next. -/
theorem limit_holds (integration : String) (limitPerMinute : ℕ) {s₀ s₁ s₂ s₃ : World P}
    {before between : List (Event P)} {first : Event P} (start : Initial integration s₀)
    (reach : Run (Serial integration limitPerMinute) s₀ before s₁)
    (reset : Serial integration limitPerMinute s₁ first s₂)
    (window : Run (InWindow integration (Serial integration limitPerMinute)) s₂ between s₃) :
    returns (first :: between) ≤ limitPerMinute := by
  have sound := start.sound.run reach
  have cause := step_cause reset.2
  have empty : Tally integration limitPerMinute 0 s₁ :=
    ⟨Int.natCast_nonneg _, fun row stored => (sound.stored row stored).2, fun _ => rfl⟩
  have opened := empty.step sound cause reset.1 (.inl rfl)
  have last := opened.run window (sound.step cause)
  rw [Nat.zero_add, ← returns_cons] at last
  exact Int.ofNat_le.mp last.within

/-! One session alone: its steps are `check`. -/

section Alone

variable {p : P} {row : CircuitBreaker} {now : ℤ}

/-- From the row that a check found, its remaining steps. -/
theorem found_alone (integration : String) (limitPerMinute : ℤ)
    (at_ : s.phase p = .found row now) :
    ∃ es t, Run (ofPartial (step integration limitPerMinute)) s es t ∧ t.phase p = .idle ∧
      t.db.store = (checkRow s.db.store row limitPerMinute now).1 ∧
      (0 < returns es ↔ ∃ b, (checkRow s.db.store row limitPerMinute now).2 = .ok b) := by
  cases still : refuses (.load row) now with
  | true =>
    have taken : step integration limitPerMinute s (.refuse p) = some (s.move p s.db .idle) := by
      simp only [step, at_, still, if_true]
    rw [checkRow_refused still]
    exact ⟨_, _, .single taken, move_self, rfl, iff_of_false (Nat.lt_irrefl 0) (by simp)⟩
  | false =>
    cases above : exceeded (charge (.load row) limitPerMinute now) with
    | true =>
      have taken : step integration limitPerMinute s (.reject p) = some (s.move p
          { s.db with store := (charge (.load row) limitPerMinute now).commit s.db.store }
          (.opened (charge (.load row) limitPerMinute now))) := by
        simp [step, at_, still, above]
      have recorded : ∃ t, step integration limitPerMinute (s.move p
          { s.db with store := (charge (.load row) limitPerMinute now).commit s.db.store }
          (.opened (charge (.load row) limitPerMinute now))) (.record p) = some t ∧
          t.phase p = .idle ∧
          t.db.store = (checkRow s.db.store row limitPerMinute now).1 := by
        rw [checkRow_rejected still above]
        simp only [step, move_self]
        exact ⟨_, rfl, move_self, rfl⟩
      obtain ⟨t, last, idle, store⟩ := recorded
      refine ⟨_, t, .cons taken (.single last), idle, store, ?_⟩
      rw [checkRow_rejected still above]
      exact iff_of_false (Nat.lt_irrefl 0) (by simp)
    | false =>
      have taken : step integration limitPerMinute s (.allow p) = some (s.move p
          { s.db with store := (charge (.load row) limitPerMinute now).commit s.db.store }
          .idle) := by
        simp [step, at_, still, above]
      rw [checkRow_allowed still above]
      exact ⟨_, _, .single taken, move_self, rfl, iff_of_true Nat.one_pos ⟨_, rfl⟩⟩

/-- With no other session in between, the steps of one check leave what `check` leaves, and it
returns when `check` does. -/
theorem check_alone (integration : String) (limitPerMinute : ℤ) (idle : s.phase p = .idle)
    (later : s.db.clock ≤ now) :
    ∃ es t, Run (ofPartial (step integration limitPerMinute)) s es t ∧ t.phase p = .idle ∧
      t.db.store = (check s.db.store integration limitPerMinute now).1 ∧
      (0 < returns es ↔ ∃ b, (check s.db.store integration limitPerMinute now).2 = .ok b) := by
  unfold check
  cases stored : s.db.store.breaker integration with
  | some row =>
    have read : step integration limitPerMinute s (.read p now) =
        some (s.move p { s.db with clock := now } (.found row now)) := by
      simp [step, idle, later, stored]
    have at_ : (s.move p { s.db with clock := now } (.found row now)).phase p = .found row now :=
      move_self
    obtain ⟨es, t, run, done, store, returned⟩ := found_alone integration limitPerMinute at_
    refine ⟨_, t, .cons read run, done, store, ?_⟩
    have none_ : returns [Event.read p now] = 0 := rfl
    rw [returns_cons, none_, Nat.zero_add]
    exact returned
  | none =>
    have read : step integration limitPerMinute s (.read p now) =
        some (s.move p { s.db with clock := now } (.missing now)) := by
      simp [step, idle, later, stored]
    have insert : ∃ t, step integration limitPerMinute
        (s.move p { s.db with clock := now } (.missing now)) (.insert p) = some t ∧
        t.phase p = .found (.new integration limitPerMinute now) now ∧
        t.db.store = s.db.store.insert (.new integration limitPerMinute now) := by
      have missing : (s.move p { s.db with clock := now } (.missing now)).db.store.breaker
          integration = none := stored
      simp only [step, move_self, missing]
      exact ⟨_, rfl, move_self, rfl⟩
    obtain ⟨u, inserted, at_, same⟩ := insert
    obtain ⟨es, t, run, done, store, returned⟩ := found_alone integration limitPerMinute at_
    rw [same] at store returned
    refine ⟨_, t, .cons read (.cons inserted run), done, store, ?_⟩
    have reads : returns [Event.read p now] = 0 := rfl
    have inserts : returns [Event.insert p] = 0 := rfl
    rw [returns_cons, reads, Nat.zero_add, returns_cons, inserts, Nat.zero_add]
    exact returned

end Alone

section Sample

inductive Session
  | api | worker
  deriving DecidableEq

/-- No row yet, and two sessions that have not begun a check. -/
def sampleWorld : World Session where
  db := ⟨⟨[], []⟩, 0⟩
  phase _ := .idle

theorem sampleWorld_initial (integration : String) : Initial integration sampleWorld :=
  ⟨fun _ => rfl, fun _ stored => by cases stored⟩

def after (limitPerMinute : ℤ) (es : List (Event Session)) : World Session :=
  (es.foldlM (step "gmail" limitPerMinute) sampleWorld).getD sampleWorld

/-- The api's check is over before the worker's begins, and both return under a limit of two. -/
theorem limit_holds_serial :
    returns [Event.allow Session.api, .read .worker 5, .allow .worker] ≤ 2 := by
  have read : Serial "gmail" (2 : ℕ) sampleWorld (.read .api 0) (after 2 [.read .api 0]) :=
    ⟨trivial, rfl⟩
  have insert : Serial "gmail" (2 : ℕ) (after 2 [.read .api 0]) (.insert .api)
      (after 2 [.read .api 0, .insert .api]) := ⟨trivial, rfl⟩
  have allow : Serial "gmail" (2 : ℕ) (after 2 [.read .api 0, .insert .api]) (.allow .api)
      (after 2 [.read .api 0, .insert .api, .allow .api]) :=
    ⟨show Store.breaker _ _ = some _ from rfl, rfl⟩
  have again : Serial "gmail" (2 : ℕ) (after 2 [.read .api 0, .insert .api, .allow .api])
      (.read .worker 5) (after 2 [.read .api 0, .insert .api, .allow .api, .read .worker 5]) :=
    ⟨trivial, rfl⟩
  have last : Serial "gmail" (2 : ℕ)
      (after 2 [.read .api 0, .insert .api, .allow .api, .read .worker 5]) (.allow .worker)
      (after 2 [.read .api 0, .insert .api, .allow .api, .read .worker 5, .allow .worker]) :=
    ⟨show Store.breaker _ _ = some _ from rfl, rfl⟩
  exact limit_holds "gmail" 2 (sampleWorld_initial "gmail")
    (.cons read (.cons insert (.nil _))) allow
    (.cons ⟨again, by decide⟩ (.cons ⟨last, by decide⟩ (.nil _)))

/-- Both sessions read the counter at zero, and a limit of one lets both of them through. -/
theorem lost_increment : ¬ ∀ (integration : String) (limitPerMinute : ℕ)
    (s₀ s₁ s₂ s₃ : World Session) (before between : List (Event Session))
    (first : Event Session), Initial integration s₀ →
    Run (ofPartial (step integration limitPerMinute)) s₀ before s₁ →
    step integration limitPerMinute s₁ first = some s₂ →
    Run (InWindow integration (ofPartial (step integration limitPerMinute))) s₂ between s₃ →
    returns (first :: between) ≤ limitPerMinute := by
  intro law
  have reach : [Event.read .api 0, .insert .api, .read .worker 5].foldlM (step "gmail" 1)
      sampleWorld = some (after 1 [.read .api 0, .insert .api, .read .worker 5]) := rfl
  have allow : step "gmail" 1 (after 1 [.read .api 0, .insert .api, .read .worker 5])
      (.allow .api) =
      some (after 1 [.read .api 0, .insert .api, .read .worker 5, .allow .api]) := rfl
  have overtaken : step "gmail" 1
      (after 1 [.read .api 0, .insert .api, .read .worker 5, .allow .api]) (.allow .worker) =
      some (after 1 [.read .api 0, .insert .api, .read .worker 5, .allow .api, .allow .worker]) :=
    rfl
  have bound := law "gmail" 1 _ _ _ _ _ [.allow .worker] (.allow .api)
    (sampleWorld_initial "gmail") (Run.of_foldlM reach) allow
    (.cons ⟨overtaken, by decide⟩ (.nil _))
  exact absurd bound (by decide)

end Sample

end BusinessOs.App.BreakerRuns
