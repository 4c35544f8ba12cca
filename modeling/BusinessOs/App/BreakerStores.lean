/- Source: app/services/guardrails.py (CircuitBreakerService.check), app/db.py, app/models.py;
   crates/abos-governance-core/src/lib.rs (evaluate_circuit_breaker)
   digest: The integration breaker over each database, by the datetimes that come back from it. -/

import BusinessOs.App.BreakerAgreement

set_option autoImplicit false
set_option relaxedAutoImplicit false

namespace BusinessOs.App.BreakerStores

open BusinessOs.Lib BusinessOs.Lib.Chrono BusinessOs.Lib.UnitOfWork
open BusinessOs.App.Models BusinessOs.App.Breakers
open BusinessOs.Governance.Breaker
open BusinessOs.App.BreakerAgreement (Agrees)

/-- A datetime of Python: an instant in UTC, or the reading of a clock without a zone. -/
inductive Datetime
  | aware (instant : ℤ)
  | naive (reading : ℤ)
  deriving DecidableEq, Repr

def Datetime.add : Datetime → ℤ → Datetime
  | .aware instant, delta => .aware (instant + delta)
  | .naive reading, delta => .naive (reading + delta)

/-- The text of the TypeError. -/
def mixedError : String := "can't compare offset-naive and offset-aware datetimes"

def Datetime.compare (order : ℤ → ℤ → Bool) : Datetime → Datetime → Except String Bool
  | .aware a, .aware b => .ok (order a b)
  | .naive a, .naive b => .ok (order a b)
  | .aware _, .naive _ => .error mixedError
  | .naive _, .aware _ => .error mixedError

/-- The databases that `db.py` connects to; the first one is its default. -/
inductive Backend
  | sqlite | cockroachdb
  deriving DecidableEq, Repr

/-- What a `DateTime(timezone=True)` column gives back for a value in UTC. SQLite has no column
type with a zone: the value is stored and read without it. -/
def Backend.read : Backend → Datetime → Datetime
  | .sqlite, .aware instant => .naive instant
  | .sqlite, .naive reading => .naive reading
  | .cockroachdb, value => value

/-- The two columns of a row that `check` compares with the clock. -/
structure Instants where
  windowStartedAt : Datetime
  openedUntil : Option Datetime
  deriving DecidableEq, Repr

/-- As the session that set them has them, its commit expiring nothing: `utcnow` is aware. -/
def Instants.set (row : CircuitBreaker) : Instants where
  windowStartedAt := .aware row.windowStartedAt
  openedUntil := row.openedUntil.map .aware

/-- As a check finds them in the table. The only caller, `execute_tool`, drops the row that a
check returns, so that no session holds it when the next check selects it. -/
def Instants.load (backend : Backend) (row : CircuitBreaker) : Instants where
  windowStartedAt := backend.read (.aware row.windowStartedAt)
  openedUntil := row.openedUntil.map fun openedUntil => backend.read (.aware openedUntil)

/-- The test for an open breaker. -/
def stillOpen (state : BreakerState) (openedUntil : Option Datetime) (now : Datetime) :
    Except String Bool :=
  match state, openedUntil with
  | .opened, some openedUntil => openedUntil.compare (fun a b => decide (a > b)) now
  | .opened, none => .ok false
  | .closed, _ => .ok false

/-- The test for a window that is over. -/
def windowOver (windowStartedAt now : Datetime) : Except String Bool :=
  (windowStartedAt.add (minutes 1)).compare (fun a b => decide (a ≤ b)) now

/-- The rest of `check`, once it has the row. Behind a window test that does not raise, both
datetimes are aware and order as instants, as `Breakers.checkRow` has them; no test writes. -/
def checkRow (store : Store) (row : CircuitBreaker) (instants : Instants)
    (limitPerMinute now : ℤ) : Store × Except String BreakerCopy :=
  match stillOpen row.state instants.openedUntil (.aware now) with
  | .error text => (store, .error text)
  | .ok true => (store, .error ("Circuit breaker open for " ++ row.integration))
  | .ok false =>
    match windowOver instants.windowStartedAt (.aware now) with
    | .error text => (store, .error text)
    | .ok _ => Breakers.checkRow store row limitPerMinute now

/-- `check`: a row that it inserts itself keeps the datetimes that it has set. -/
def check (backend : Backend) (store : Store) (integration : String) (limitPerMinute now : ℤ) :
    Store × Except String BreakerCopy :=
  match store.breaker integration with
  | some row => checkRow store row (.load backend row) limitPerMinute now
  | none =>
    let row := CircuitBreaker.new integration limitPerMinute now
    checkRow (store.insert row) row (.set row) limitPerMinute now

/-- The store after calls in order, whether they returned or raised. -/
def checkCalls (backend : Backend) (integration : String) (store : Store) (calls : List Call) :
    Store :=
  calls.foldl
    (fun store call =>
      (check backend store integration call.limitPerMinute.toNat call.now).1) store

section Check

variable {backend : Backend} {store : Store} {row : CircuitBreaker}
variable {integration : String} {limitPerMinute now : ℤ}

theorem stillOpen_set : stillOpen row.state (Instants.set row).openedUntil (.aware now) =
    .ok (refuses (.load row) now) := by
  unfold stillOpen Instants.set refuses BreakerCopy.load Tracked.load
  cases row.state <;> cases row.openedUntil <;> rfl

/-- Over aware datetimes the checks are those of exact instants. -/
theorem checkRow_set : checkRow store row (.set row) limitPerMinute now =
    Breakers.checkRow store row limitPerMinute now := by
  unfold checkRow
  rw [stillOpen_set]
  cases still : refuses (.load row) now with
  | false => rfl
  | true => exact (checkRow_refused still).symm

theorem load_cockroachdb : Instants.load .cockroachdb row = Instants.set row := rfl

/-- A database that keeps the zone refines the breaker of exact instants. -/
theorem check_cockroachdb : check .cockroachdb store integration limitPerMinute now =
    Breakers.check store integration limitPerMinute now := by
  unfold check Breakers.check
  cases store.breaker integration with
  | none => exact checkRow_set
  | some row =>
    simp only [load_cockroachdb]
    exact checkRow_set

/-- So does any database as long as the integration has no row. -/
theorem check_fresh (fresh : store.breaker integration = none) :
    check backend store integration limitPerMinute now =
      Breakers.check store integration limitPerMinute now := by
  unfold check Breakers.check
  rw [fresh]
  exact checkRow_set

/-- A naive datetime does not compare with the aware clock, whichever test comes first. -/
theorem checkRow_sqlite : checkRow store row (.load .sqlite row) limitPerMinute now =
    (store, .error mixedError) := by
  obtain ⟨_, _, _, _, state, openedUntil⟩ := row
  cases state <;> cases openedUntil <;> rfl

/-- On SQLite every check of a stored row raises, and writes nothing. -/
theorem check_sqlite (stored : store.breaker integration = some row) :
    check .sqlite store integration limitPerMinute now = (store, .error mixedError) := by
  unfold check
  rw [stored]
  exact checkRow_sqlite

end Check

section Calls

variable {backend : Backend} {integration : String} {store : Store}
variable {calls : List Call} {call : Call}

theorem checkCalls_append (calls later : List Call) :
    checkCalls backend integration store (calls ++ later) =
      checkCalls backend integration (checkCalls backend integration store calls) later := by
  unfold checkCalls
  exact List.foldl_append

theorem checkCalls_cockroachdb : checkCalls .cockroachdb integration store calls =
    BreakerAgreement.checkCalls integration store calls := by
  unfold checkCalls BreakerAgreement.checkCalls
  simp only [check_cockroachdb]

theorem checkCalls_sqlite {row : CircuitBreaker}
    (stored : store.breaker integration = some row) :
    checkCalls .sqlite integration store calls = store := by
  unfold checkCalls
  induction calls with
  | nil => rfl
  | cons call calls ih => rw [List.foldl_cons, check_sqlite stored, ih]

end Calls

/-- One call of each behind the same calls: they decide alike, and hold the same values then. The
row's datetimes are compared by their readings in UTC. -/
def AgreeOn (backend : Backend) (mode : MachineInt.Overflow) (integration : String)
    (store : Store) (before : List Call) (call : Call) : Prop :=
  ∃ decision row, evaluateCalls mode integration (before ++ [call]) = .ok (some decision) ∧
    (checkCalls backend integration store (before ++ [call])).breaker integration = some row ∧
    (decision.allowed = true ↔ ∃ b, (check backend (checkCalls backend integration store before)
      integration call.limitPerMinute.toNat call.now).2 = .ok b) ∧
    Agrees decision row

/-- The two breakers agree on every call of a sequence. -/
def Equivalent (backend : Backend) (mode : MachineInt.Overflow) (integration : String)
    (store : Store) (calls : List Call) : Prop :=
  ∀ before call, before ++ [call] <+: calls → AgreeOn backend mode integration store before call

/-- Every call behind the first one finds the breaker that the first one opened. -/
def StaysOpen : List Call → Prop
  | [] => True
  | first :: later =>
    ∀ call ∈ later, first.limitPerMinute = 0 ∧ call.now < first.now + minutes 5

instance : DecidablePred StaysOpen
  | [] => .isTrue trivial
  | first :: later => inferInstanceAs
      (Decidable (∀ call ∈ later, first.limitPerMinute = 0 ∧ call.now < first.now + minutes 5))

/-! The row of the first call, which SQLite keeps from then on. -/

/-- The row that the first call leaves. -/
def firstRow (integration : String) (first : Call) : CircuitBreaker :=
  (CircuitBreaker.new integration first.limitPerMinute.toNat first.now).charged
    first.limitPerMinute.toNat first.now

section First

variable {mode : MachineInt.Overflow} {integration : String} {store : Store}
variable {first call : Call} {later : List Call}

theorem new_counted (integration : String) (limitPerMinute now : ℤ) :
    (CircuitBreaker.new integration limitPerMinute now).counted now = 1 := by
  have running : ¬ now + minutes 1 ≤ now := by
    unfold minutes
    omega
  unfold CircuitBreaker.counted CircuitBreaker.new
  rw [if_neg running, zero_add]

theorem firstRow_window (integration : String) (first : Call) :
    (firstRow integration first).windowStartedAt = first.now := by
  unfold firstRow CircuitBreaker.charged CircuitBreaker.new
  exact ite_self _

theorem firstRow_calls (integration : String) (first : Call) :
    (firstRow integration first).callsThisWindow = 1 := new_counted ..

/-- The first call opens the breaker exactly when its limit is none. -/
theorem firstRow_open (integration : String) (first : Call) (now : ℤ) :
    (firstRow integration first).Open now ↔
      first.limitPerMinute = 0 ∧ now < first.now + minutes 5 := by
  have counted := new_counted integration first.limitPerMinute.toNat first.now
  have running : ¬ first.now + minutes 1 ≤ first.now := by
    unfold minutes
    omega
  have noCalls : ((first.limitPerMinute.toNat : ℤ) < 1) ↔ first.limitPerMinute = 0 := by
    rw [← UInt32.toNat_inj]
    show _ ↔ first.limitPerMinute.toNat = 0
    omega
  unfold CircuitBreaker.Open firstRow CircuitBreaker.charged
  rw [counted]
  by_cases zero : first.limitPerMinute = 0
  · simp [zero]
  · simp [noCalls, zero, CircuitBreaker.new, running]

theorem checkCalls_first {backend : Backend} (fresh : store.breaker integration = none) :
    (checkCalls backend integration store [first]).breaker integration =
      some (firstRow integration first) := by
  have checked := check_cases store integration first.limitPerMinute.toNat first.now
  simp only [Store.found, fresh, Option.getD_none] at checked
  rcases checked with ⟨⟨opened, _⟩, _⟩ | ⟨_, after, _⟩
  · cases opened
  · simp only [checkCalls, List.foldl_cons, List.foldl_nil, check_fresh fresh]
    exact after

/-- A call that goes on from that row changes the counter or the window. -/
theorem goes_on {decision : CircuitBreakerDecision}
    (count : decision.callsThisWindow.toNat =
      (if first.now + minutes 1 ≤ call.now then 0 else 1) + 1)
    (start : decision.windowStartedAt =
      if first.now + minutes 1 ≤ call.now then call.now else first.now) :
    ¬ Agrees decision (firstRow integration first) := by
  intro same
  have calls := same.callsThisWindow
  have windows := same.windowStartedAt
  rw [firstRow_calls, count] at calls
  rw [firstRow_window, start] at windows
  by_cases expired : first.now + minutes 1 ≤ call.now
  · rw [if_pos expired] at windows
    unfold minutes at expired
    omega
  · rw [if_neg expired] at calls
    omega

/-- On SQLite the later calls leave the row of the first one. -/
theorem checkCalls_later (fresh : store.breaker integration = none) :
    (checkCalls .sqlite integration store (first :: later)).breaker integration =
      some (firstRow integration first) := by
  have row : (checkCalls .sqlite integration store [first]).breaker integration =
      some (firstRow integration first) := checkCalls_first fresh
  rw [← List.singleton_append, checkCalls_append, checkCalls_sqlite row]
  exact row

end First

section Agreement

variable {backend : Backend} {mode : MachineInt.Overflow} {integration : String} {store : Store}
variable {first call : Call} {before later calls : List Call}

theorem equivalent_snoc : Equivalent backend mode integration store (calls ++ [call]) ↔
    Equivalent backend mode integration store calls ∧
      AgreeOn backend mode integration store calls call := by
  constructor
  · intro agree
    exact ⟨fun before c initial => agree before c (initial.trans (List.prefix_append _ _)),
      agree calls call List.prefix_rfl⟩
  · rintro ⟨agree, last⟩ before c initial
    rcases List.prefix_concat_iff.mp initial with all | earlier
    · obtain ⟨rfl, rfl⟩ := List.append_inj' all rfl |>.imp_right List.singleton_inj.mp
      exact last
    · exact agree before c earlier

theorem agreeOn_cockroachdb (fresh : store.breaker integration = none)
    (clock : (before ++ [call]).Pairwise fun a b => a.now ≤ b.now)
    (readings : ∀ c ∈ before ++ [call],
      Representable c.now ∧ Representable (c.now + minutes 5))
    (counters : ∀ earlier, earlier <+: before → ∀ row,
      (checkCalls .cockroachdb integration store earlier).breaker integration = some row →
      row.callsThisWindow < 2 ^ 32 - 1) :
    AgreeOn .cockroachdb mode integration store before call := by
  simp only [checkCalls_cockroachdb] at counters
  obtain ⟨decision, row, sequence, after, verdict, state, calls, window, opened⟩ :=
    BreakerAgreement.breakers_agree mode integration store fresh before call clock readings counters
  refine ⟨decision, row, sequence, ?_, ?_, ⟨state, calls, window, opened⟩⟩
  · rw [checkCalls_cockroachdb]
    exact after
  · rw [checkCalls_cockroachdb, check_cockroachdb]
    exact verdict

/-- The first call inserts its row, and agrees over any database. -/
theorem agreeOn_first (fresh : store.breaker integration = none)
    (reading : Representable first.now ∧ Representable (first.now + minutes 5)) :
    AgreeOn backend mode integration store [] first := by
  have kept : AgreeOn .cockroachdb mode integration store [] first := by
    refine agreeOn_cockroachdb fresh (List.pairwise_singleton _ _) (by simpa using reading) ?_
    intro earlier initial row held
    rw [List.prefix_nil.mp initial] at held
    exact absurd (fresh.symm.trans held) (by simp)
  unfold AgreeOn at *
  simp only [List.nil_append, checkCalls, List.foldl_cons, List.foldl_nil, check_fresh fresh]
    at kept ⊢
  exact kept

/-- Over the row of the first call, a later call agrees with the raising check exactly when the
breaker is still open: any call that goes on changes the counter or the window. -/
theorem agreeOn_later (fresh : store.breaker integration = none)
    {last : CircuitBreakerDecision}
    (sequence : evaluateCalls mode integration (first :: later) = .ok (some last))
    (held : Agrees last (firstRow integration first))
    (reading : Representable first.now ∧ Representable (first.now + minutes 5))
    (opening : Representable (call.now + minutes 5)) :
    AgreeOn .sqlite mode integration store (first :: later) call ↔
      (firstRow integration first).Open call.now := by
  have stored : (checkCalls .sqlite integration store (first :: later)).breaker integration =
      some (firstRow integration first) := checkCalls_later fresh
  have after : (checkCalls .sqlite integration store (first :: (later ++ [call]))).breaker
      integration = some (firstRow integration first) := checkCalls_later fresh
  have raised : ¬ ∃ b, (check .sqlite (checkCalls .sqlite integration store (first :: later))
      integration call.limitPerMinute.toNat call.now).2 = .ok b := by
    rw [check_sqlite stored]
    simp
  have one : last.callsThisWindow.toNat = 1 := by
    have calls := held.callsThisWindow
    rw [firstRow_calls] at calls
    omega
  have started : last.windowStartedAt = first.now := by
    rw [held.windowStartedAt, firstRow_window]
  have window : Representable ((last.feed call).windowStartedAt + minutes 1) := by
    show Representable (last.windowStartedAt + minutes 1)
    rw [started]
    refine reading.1.between reading.2 ?_ ?_ <;> unfold minutes <;> omega
  obtain ⟨decision, evaluated, _, decided⟩ := evaluateCircuitBreaker_cases mode (last.feed call)
    window opening (by show last.callsThisWindow.toNat < _; omega)
  have next : evaluateCalls mode integration ((first :: later) ++ [call]) = .ok (some decision) :=
    BreakerAgreement.evaluateCalls_snoc sequence evaluated
  have refused := (held.matches_feed call).refused
  constructor
  · rintro ⟨decision', row, sequence', after', _, same⟩
    obtain rfl := Option.some.inj (Except.ok.inj (next.symm.trans sequence'))
    obtain rfl := Option.some.inj (after.symm.trans after')
    rcases decided with ⟨still, _⟩ | ⟨_, count, start, _⟩
    · exact refused.mp still
    · simp only [CircuitBreakerDecision.feed, one, started] at count start
      exact absurd same (goes_on count start)
  · intro still
    rcases decided with ⟨_, denied, state, count, start, until_⟩ | ⟨goes, _⟩
    · refine ⟨decision, _, next, after, iff_of_false (by simp [denied]) raised, ?_, ?_, ?_, ?_⟩
      · rw [state]
        exact still.1.symm
      · rw [count]
        exact held.callsThisWindow
      · rw [start]
        exact held.windowStartedAt
      · rw [until_]
        exact held.openedUntil
    · exact absurd (refused.mpr still) goes

/-- On SQLite the breakers agree behind the first call exactly as long as it keeps them open. -/
theorem equivalent_sqlite (fresh : store.breaker integration = none)
    (readings : ∀ c ∈ first :: later,
      Representable c.now ∧ Representable (c.now + minutes 5)) :
    Equivalent .sqlite mode integration store (first :: later) ↔
      ∀ call ∈ later, (firstRow integration first).Open call.now := by
  induction later using List.reverseRecOn with
  | nil =>
    have agree : AgreeOn .sqlite mode integration store [] first :=
      agreeOn_first fresh (readings first List.mem_cons_self)
    rw [← List.nil_append [first], equivalent_snoc]
    refine iff_of_true ⟨fun before c initial => ?_, agree⟩ (by simp)
    simp at initial
  | append_singleton later call ih =>
    have ih := ih fun c member => readings c (List.mem_append_left [call] member)
    rw [← List.cons_append, equivalent_snoc, ih]
    simp only [List.mem_append, List.mem_singleton, or_imp, forall_and, forall_eq]
    refine and_congr_right fun still => ?_
    -- the breakers agree on the calls before, so the last decision has the first call's values
    have agree : Equivalent .sqlite mode integration store (first :: later) := ih.mpr still
    obtain ⟨earlier, c, split⟩ : ∃ earlier c, first :: later = earlier ++ [c] :=
      ⟨_, _, (List.dropLast_append_getLast (by simp)).symm⟩
    obtain ⟨last, row, sequence, after, _, same⟩ := agree earlier c (by rw [split])
    rw [← split] at sequence after
    obtain rfl := Option.some.inj ((checkCalls_later fresh).symm.trans after)
    exact agreeOn_later fresh sequence same (readings first List.mem_cons_self)
      (readings call (by simp)).2

end Agreement

/-- From a fresh breaker the two breakers agree on every call of a sequence exactly when the
database keeps the zone, or the first call has opened the breaker for all the others. -/
theorem breakers_agree_iff (backend : Backend) (mode : MachineInt.Overflow) (integration : String)
    (store : Store) (fresh : store.breaker integration = none) (calls : List Call)
    (clock : calls.Pairwise fun a b => a.now ≤ b.now)
    (readings : ∀ c ∈ calls, Representable c.now ∧ Representable (c.now + minutes 5))
    (counters : ∀ before, before <+: calls → ∀ row,
      (checkCalls backend integration store before).breaker integration = some row →
      row.callsThisWindow < 2 ^ 32 - 1) :
    Equivalent backend mode integration store calls ↔
      backend = .cockroachdb ∨ StaysOpen calls := by
  cases backend with
  | cockroachdb =>
    refine iff_of_true (fun before call initial => ?_) (.inl rfl)
    refine agreeOn_cockroachdb fresh (clock.sublist initial.sublist)
      (fun c member => readings c (initial.subset member)) ?_
    exact fun earlier part =>
      counters earlier (part.trans ((List.prefix_append _ _).trans initial))
  | sqlite =>
    simp only [reduceCtorEq, false_or]
    cases calls with
    | nil => exact iff_of_true (fun before call initial => by simp at initial) trivial
    | cons first later =>
      rw [equivalent_sqlite fresh readings]
      simp only [firstRow_open]
      rfl

/-- Over a database that keeps the zone, two calls in one minute under a limit of one, and a third
under a limit of two when the breaker's opening is over. -/
theorem breakers_agree_iff_sample :
    Equivalent .cockroachdb .checked "gmail" ⟨[], []⟩ [⟨0, 1⟩, ⟨0, 1⟩, ⟨minutes 5, 2⟩] :=
  (breakers_agree_iff .cockroachdb .checked "gmail" ⟨[], []⟩ rfl [⟨0, 1⟩, ⟨0, 1⟩, ⟨minutes 5, 2⟩]
    (by decide) (by decide) (by
      intro before initial
      have each : ∀ before ∈ ([⟨0, 1⟩, ⟨0, 1⟩, ⟨minutes 5, 2⟩] : List Call).inits,
          ∀ row ∈ (checkCalls .cockroachdb "gmail" ⟨[], []⟩ before).breaker "gmail",
            row.callsThisWindow < 2 ^ 32 - 1 := by decide
      exact each before ((List.mem_inits _ _).mpr initial))).mpr (.inl rfl)

/-- On the default database the second check of an integration raises, one second behind the
first one and far below the limit. -/
theorem second_check_raises :
    (check .sqlite (checkCalls .sqlite "gmail" ⟨[], []⟩ [⟨0, 120⟩]) "gmail" 120 1000000000).2 =
        .error mixedError ∧
      ¬ Equivalent .sqlite .checked "gmail" ⟨[], []⟩ [⟨0, 120⟩, ⟨1000000000, 120⟩] := by
  refine ⟨rfl, ?_⟩
  rw [equivalent_sqlite rfl (by decide)]
  simp [firstRow_open]

end BusinessOs.App.BreakerStores
