/- Source: app/services/guardrails.py (CircuitBreakerService), app/models.py (CircuitBreaker)
   digest: The integration breaker of the Python runtime, over its committed row. -/

import BusinessOs.App.Models
import BusinessOs.Lib.Chrono
import BusinessOs.Lib.UnitOfWork

set_option autoImplicit false
set_option relaxedAutoImplicit false

namespace BusinessOs.App.Breakers

open BusinessOs.Lib BusinessOs.Lib.Chrono BusinessOs.Lib.UnitOfWork BusinessOs.Lib.Json.Tree
open BusinessOs.App.Models

inductive BreakerState
  | closed | opened
  deriving DecidableEq, Repr

/-- `updated_at` is left out: no operation reads it. The two datetimes are instants, as a database
that keeps their zone gives them back; `BreakerStores` has the one that does not. -/
structure CircuitBreaker where
  integration : String
  limitPerMinute : ℤ
  callsThisWindow : ℤ
  windowStartedAt : ℤ
  state : BreakerState
  openedUntil : Option ℤ
  deriving DecidableEq, Repr

/-- The row as `check` inserts it; the other columns have their defaults. -/
def CircuitBreaker.new (integration : String) (limitPerMinute now : ℤ) : CircuitBreaker where
  integration
  limitPerMinute
  callsThisWindow := 0
  windowStartedAt := now
  state := .closed
  openedUntil := none

/-- The committed rows that the service reads or writes; `integration` is unique. -/
structure Store where
  circuitBreakers : List CircuitBreaker
  auditLogs : List AuditLog
  deriving DecidableEq

def Store.breaker (store : Store) (integration : String) : Option CircuitBreaker :=
  Table.get CircuitBreaker.integration store.circuitBreakers integration

def Store.insert (store : Store) (row : CircuitBreaker) : Store :=
  { store with circuitBreakers := store.circuitBreakers ++ [row] }

/-- A session's copy of the row. -/
structure BreakerCopy where
  integration : String
  limitPerMinute : Tracked ℤ
  callsThisWindow : Tracked ℤ
  windowStartedAt : Tracked ℤ
  state : Tracked BreakerState
  openedUntil : Tracked (Option ℤ)
  deriving DecidableEq

def BreakerCopy.load (row : CircuitBreaker) : BreakerCopy where
  integration := row.integration
  limitPerMinute := .load row.limitPerMinute
  callsThisWindow := .load row.callsThisWindow
  windowStartedAt := .load row.windowStartedAt
  state := .load row.state
  openedUntil := .load row.openedUntil

section Copy

variable (breaker : BreakerCopy)

def BreakerCopy.flush (row : CircuitBreaker) : CircuitBreaker :=
  { row with
    limitPerMinute := breaker.limitPerMinute.flush row.limitPerMinute
    callsThisWindow := breaker.callsThisWindow.flush row.callsThisWindow
    windowStartedAt := breaker.windowStartedAt.flush row.windowStartedAt
    state := breaker.state.flush row.state
    openedUntil := breaker.openedUntil.flush row.openedUntil }

/-- The copy after the commit; it is not read again. -/
def BreakerCopy.committed : BreakerCopy :=
  { breaker with
    limitPerMinute := breaker.limitPerMinute.committed
    callsThisWindow := breaker.callsThisWindow.committed
    windowStartedAt := breaker.windowStartedAt.committed
    state := breaker.state.committed
    openedUntil := breaker.openedUntil.committed }

def BreakerCopy.commit (store : Store) : Store :=
  { store with
    circuitBreakers := Table.update CircuitBreaker.integration store.circuitBreakers
      breaker.integration breaker.flush }

/-- The breaker is open at `now`. -/
def refuses (now : ℤ) : Bool :=
  breaker.state.current == .opened &&
    match breaker.openedUntil.current with
    | some openedUntil => decide (openedUntil > now)
    | none => false

/-- A window that is over starts again, and closes the breaker. -/
def renewWindow (now : ℤ) : BreakerCopy :=
  if breaker.windowStartedAt.current + minutes 1 ≤ now then
    { breaker with
      callsThisWindow := breaker.callsThisWindow.set 0
      windowStartedAt := breaker.windowStartedAt.set now
      state := breaker.state.set .closed
      openedUntil := breaker.openedUntil.set none }
  else breaker

/-- Count the call. -/
def count (limitPerMinute now : ℤ) : BreakerCopy :=
  let breaker := renewWindow breaker now
  { breaker with
    callsThisWindow := breaker.callsThisWindow.set (breaker.callsThisWindow.current + 1)
    limitPerMinute := breaker.limitPerMinute.set limitPerMinute }

def exceeded : Bool := decide (breaker.callsThisWindow.current > breaker.limitPerMinute.current)

/-- What `check` writes into its copy before it commits. -/
def charge (limitPerMinute now : ℤ) : BreakerCopy :=
  let breaker := count breaker limitPerMinute now
  if exceeded breaker then
    { breaker with
      state := breaker.state.set .opened
      openedUntil := breaker.openedUntil.set (some (now + minutes 5)) }
  else breaker

def openedRecord : AuditLog where
  workflowId := none
  action := .circuitBreakerOpened
  actor := "system"
  message := "Circuit breaker opened for " ++ breaker.integration
  metadata := .object [("integration", .string breaker.integration),
    ("limit_per_minute", int breaker.limitPerMinute.current),
    ("calls_this_window", int breaker.callsThisWindow.current)]

end Copy

/-- The rest of `check`, once it has the row; the error is the exception's text. -/
def checkRow (store : Store) (row : CircuitBreaker) (limitPerMinute now : ℤ) :
    Store × Except String BreakerCopy :=
  let breaker := BreakerCopy.load row
  if refuses breaker now then
    (store, .error ("Circuit breaker open for " ++ row.integration))
  else
    let breaker := charge breaker limitPerMinute now
    let store := breaker.commit store
    if exceeded breaker then
      ({ store with auditLogs := store.auditLogs ++ [openedRecord breaker] },
        .error ("Rate limit exceeded for " ++ row.integration))
    else (store, .ok breaker.committed)

/-- `check` without another session in between. -/
def check (store : Store) (integration : String) (limitPerMinute now : ℤ) :
    Store × Except String BreakerCopy :=
  match store.breaker integration with
  | some row => checkRow store row limitPerMinute now
  | none =>
    let row := CircuitBreaker.new integration limitPerMinute now
    checkRow (store.insert row) row limitPerMinute now

/-! What a charged copy writes over the row that it was read from. -/

/-- A row that the breaker's next call finds still open. -/
def CircuitBreaker.Open (row : CircuitBreaker) (now : ℤ) : Prop :=
  row.state = .opened ∧ ∃ openedUntil ∈ row.openedUntil, openedUntil > now

/-- The counter after one more call. -/
def CircuitBreaker.counted (row : CircuitBreaker) (now : ℤ) : ℤ :=
  (if row.windowStartedAt + minutes 1 ≤ now then 0 else row.callsThisWindow) + 1

section Charge

variable {row : CircuitBreaker} {limitPerMinute now : ℤ}

theorem refuses_load : refuses (.load row) now = true ↔ row.Open now := by
  unfold refuses BreakerCopy.load Tracked.load CircuitBreaker.Open
  cases row.openedUntil <;> simp

/-- The row that a charged copy of it leaves. -/
def CircuitBreaker.charged (row : CircuitBreaker) (limitPerMinute now : ℤ) : CircuitBreaker :=
  let expired := row.windowStartedAt + minutes 1 ≤ now
  let above := limitPerMinute < row.counted now
  { row with
    limitPerMinute
    callsThisWindow := row.counted now
    windowStartedAt := if expired then now else row.windowStartedAt
    state := if above then .opened else if expired then .closed else row.state
    openedUntil :=
      if above then some (now + minutes 5) else if expired then none else row.openedUntil }

/-- A copy that was read from one row and holds the values of another. -/
def BreakerCopy.between (row next : CircuitBreaker) : BreakerCopy where
  integration := row.integration
  limitPerMinute := ⟨row.limitPerMinute, next.limitPerMinute⟩
  callsThisWindow := ⟨row.callsThisWindow, next.callsThisWindow⟩
  windowStartedAt := ⟨row.windowStartedAt, next.windowStartedAt⟩
  state := ⟨row.state, next.state⟩
  openedUntil := ⟨row.openedUntil, next.openedUntil⟩

theorem flush_between {next : CircuitBreaker} (same : next.integration = row.integration) :
    (BreakerCopy.between row next).flush row = next := by
  unfold BreakerCopy.between BreakerCopy.flush
  simp only [flush_of_loaded]
  rw [← same]

theorem count_load : count (.load row) limitPerMinute now = .between row
    { row with
      limitPerMinute
      callsThisWindow := row.counted now
      windowStartedAt := if row.windowStartedAt + minutes 1 ≤ now then now else row.windowStartedAt
      state := if row.windowStartedAt + minutes 1 ≤ now then .closed else row.state
      openedUntil := if row.windowStartedAt + minutes 1 ≤ now then none else row.openedUntil } := by
  unfold count renewWindow CircuitBreaker.counted BreakerCopy.between
  by_cases expired : row.windowStartedAt + minutes 1 ≤ now <;>
    simp [BreakerCopy.load, Tracked.load, Tracked.set, expired]

theorem charge_load : charge (.load row) limitPerMinute now =
    .between row (row.charged limitPerMinute now) := by
  unfold charge CircuitBreaker.charged
  rw [count_load]
  by_cases above : limitPerMinute < row.counted now
  · simp [exceeded, BreakerCopy.between, Tracked.set, above]
  · simp [exceeded, BreakerCopy.between, above]

/-- The limit is exceeded exactly when the counted call is above it. -/
theorem exceeded_charge :
    exceeded (charge (.load row) limitPerMinute now) = true ↔
      limitPerMinute < row.counted now := by
  rw [charge_load, exceeded, decide_eq_true_iff]
  rfl

theorem charge_flush :
    (charge (.load row) limitPerMinute now).flush row = row.charged limitPerMinute now := by
  rw [charge_load]
  exact flush_between rfl

theorem charge_integration :
    (charge (.load row) limitPerMinute now).integration = row.integration := by
  rw [charge_load]
  rfl

theorem charged_not_over (within : row.counted now ≤ limitPerMinute) :
    (row.charged limitPerMinute now).state =
        (if row.windowStartedAt + minutes 1 ≤ now then .closed else row.state) ∧
      (row.charged limitPerMinute now).openedUntil =
        if row.windowStartedAt + minutes 1 ≤ now then none else row.openedUntil := by
  have within : ¬ limitPerMinute < row.counted now := not_lt.mpr within
  simp only [CircuitBreaker.charged, within, if_false, and_self]

end Charge

/-- The commit of a copy writes its own row. -/
theorem commit_breaker (store : Store) (breaker : BreakerCopy) :
    (breaker.commit store).breaker breaker.integration =
      (store.breaker breaker.integration).map breaker.flush := by
  show Table.get _ (Table.update _ _ _ _) _ = _
  exact Table.get_update_self fun _ => rfl

theorem breaker_insert {store : Store} (row : CircuitBreaker)
    (new : store.breaker row.integration = none) :
    (store.insert row).breaker row.integration = some row := by
  show Table.get _ (store.circuitBreakers ++ [row]) _ = _
  rw [Table.get_append]
  show (store.breaker row.integration).or _ = _
  rw [new, Option.none_or, if_pos rfl]

section CheckRow

variable {store : Store} {row : CircuitBreaker} {limitPerMinute now : ℤ}

theorem checkRow_refused (still : refuses (.load row) now = true) :
    checkRow store row limitPerMinute now =
      (store, .error ("Circuit breaker open for " ++ row.integration)) := by
  simp only [checkRow, still, if_true]

theorem checkRow_rejected (goes : refuses (.load row) now = false)
    (above : exceeded (charge (.load row) limitPerMinute now) = true) :
    checkRow store row limitPerMinute now =
      ({ (charge (.load row) limitPerMinute now).commit store with
          auditLogs := store.auditLogs ++ [openedRecord (charge (.load row) limitPerMinute now)] },
        .error ("Rate limit exceeded for " ++ row.integration)) := by
  simp only [checkRow, goes, above, Bool.false_eq_true, if_false, if_true]
  rfl

theorem checkRow_allowed (goes : refuses (.load row) now = false)
    (within : exceeded (charge (.load row) limitPerMinute now) = false) :
    checkRow store row limitPerMinute now =
      ((charge (.load row) limitPerMinute now).commit store,
        .ok (charge (.load row) limitPerMinute now).committed) := by
  simp only [checkRow, goes, within, Bool.false_eq_true, if_false]

end CheckRow

/-- A check leaves an open breaker alone; any other one it charges, and it returns exactly when
the counted call is within the limit. -/
theorem checkRow_cases {store : Store} {row : CircuitBreaker}
    (stored : store.breaker row.integration = some row) (limitPerMinute now : ℤ) :
    let result := checkRow store row limitPerMinute now
    (row.Open now ∧ result.1.breaker row.integration = some row ∧ ∀ b, result.2 ≠ .ok b) ∨
      (¬ row.Open now ∧
        result.1.breaker row.integration = some (row.charged limitPerMinute now) ∧
        ((∃ b, result.2 = .ok b) ↔ row.counted now ≤ limitPerMinute)) := by
  intro result
  have committed : ((charge (.load row) limitPerMinute now).commit store).breaker
      row.integration = some (row.charged limitPerMinute now) := by
    have own := commit_breaker store (charge (.load row) limitPerMinute now)
    rw [charge_integration, stored, Option.map_some, charge_flush] at own
    exact own
  simp only [result]
  by_cases still : row.Open now
  · left
    rw [checkRow_refused (refuses_load.mpr still)]
    exact ⟨still, stored, by simp⟩
  · right
    have goes : refuses (.load row) now = false :=
      Bool.eq_false_iff.mpr fun h => still (refuses_load.mp h)
    refine ⟨still, ?_⟩
    by_cases above : limitPerMinute < row.counted now
    · rw [checkRow_rejected goes (exceeded_charge.mpr above)]
      exact ⟨committed, iff_of_false (by simp) (not_le.mpr above)⟩
    · rw [checkRow_allowed goes (Bool.eq_false_iff.mpr fun h => above (exceeded_charge.mp h))]
      exact ⟨committed, iff_of_true ⟨_, rfl⟩ (not_lt.mp above)⟩

/-- The row that a check works on: the stored one, or a new one. -/
def Store.found (store : Store) (integration : String) (limitPerMinute now : ℤ) :
    CircuitBreaker :=
  (store.breaker integration).getD (.new integration limitPerMinute now)

/-- A check works on the row that it finds, stored by then. -/
theorem check_eq (store : Store) (integration : String) (limitPerMinute now : ℤ) :
    ∃ working : Store,
      working.breaker integration = some (store.found integration limitPerMinute now) ∧
      (store.found integration limitPerMinute now).integration = integration ∧
      check store integration limitPerMinute now =
        checkRow working (store.found integration limitPerMinute now) limitPerMinute now := by
  cases stored : store.breaker integration with
  | none =>
    refine ⟨store.insert (.new integration limitPerMinute now), ?_, ?_, ?_⟩
    · simp only [Store.found, stored, Option.getD_none]
      exact breaker_insert (.new integration limitPerMinute now) stored
    · simp only [Store.found, stored, Option.getD_none]
      rfl
    · simp only [check, stored, Store.found, Option.getD_none]
  | some row =>
    refine ⟨store, ?_, ?_, ?_⟩
    · simp only [Store.found, stored, Option.getD_some]
    · simp only [Store.found, stored, Option.getD_some]
      exact (Table.get_mem stored).2
    · simp only [check, stored, Store.found, Option.getD_some]

theorem check_cases (store : Store) (integration : String) (limitPerMinute now : ℤ) :
    let row := store.found integration limitPerMinute now
    let result := check store integration limitPerMinute now
    (row.Open now ∧ result.1.breaker integration = some row ∧ ∀ b, result.2 ≠ .ok b) ∨
      (¬ row.Open now ∧
        result.1.breaker integration = some (row.charged limitPerMinute now) ∧
        ((∃ b, result.2 = .ok b) ↔ row.counted now ≤ limitPerMinute)) := by
  intro row result
  obtain ⟨working, stored, named, same⟩ := check_eq store integration limitPerMinute now
  have own : working.breaker row.integration = some row := by rw [named, stored]
  have cases := checkRow_cases own limitPerMinute now
  rw [named, ← same] at cases
  exact cases

end BusinessOs.App.Breakers
