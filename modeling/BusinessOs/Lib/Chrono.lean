/- digest: Fixed-width arithmetic with its panics, and chrono's instants and durations. -/

import Mathlib.Data.Int.Order.Basic
import Mathlib.Data.Rat.Floor
import Mathlib.Tactic.Ring

set_option autoImplicit false
set_option relaxedAutoImplicit false

namespace BusinessOs.Lib.Chrono

/-- The ways a checked operation aborts the calling thread. -/
inductive Panic
  | divideByZero | overflow | outOfRange | unwrapNone
  deriving DecidableEq, Repr

@[simp] theorem ok_bind {ε α β : Type} (a : α) (f : α → Except ε β) :
    (Except.ok a >>= f) = f a := rfl

@[simp] theorem error_bind {ε α β : Type} (e : ε) (f : α → Except ε β) :
    (Except.error e >>= f) = .error e := rfl

@[simp] theorem pure_eq_ok {ε α : Type} (a : α) : (pure a : Except ε α) = .ok a := rfl

/-- A computation that returned has returned at every step. -/
theorem bind_eq_ok {ε α β : Type} {x : Except ε α} {f : α → Except ε β} {b : β}
    (h : (x >>= f) = .ok b) : ∃ a, x = .ok a ∧ f a = .ok b := by
  cases x with
  | error _ => simp at h
  | ok a => exact ⟨a, rfl, h⟩

/-! An instant is an integer of nanoseconds since the Unix epoch, and a duration an
    integer of nanoseconds. -/

/-- The instants that `DateTime<Utc>` can hold: the years -262143 to 262142. -/
def Representable (t : ℤ) : Prop :=
  -8334601228800 * 1000000000 ≤ t ∧ t ≤ 8210266876799 * 1000000000 + 999999999

instance (t : ℤ) : Decidable (Representable t) :=
  inferInstanceAs (Decidable (_ ∧ _))

/-- Whole milliseconds of a duration, rounded towards zero. -/
def numMilliseconds (d : ℤ) : ℤ := d.tdiv 1000000

/-- `Duration::milliseconds`, which refuses the one `i64` below `-i64::MAX`. -/
def milliseconds (ms : ℤ) : Except Panic ℤ :=
  if -(2 ^ 63 - 1) ≤ ms then .ok (ms * 1000000) else .error .outOfRange

/-- Seconds that a duration can hold, its bounds being `±i64::MAX` milliseconds. -/
def SecondsInRange (secs : ℤ) : Prop :=
  -9223372036854775 ≤ secs ∧ secs ≤ 9223372036854775

instance (secs : ℤ) : Decidable (SecondsInRange secs) :=
  inferInstanceAs (Decidable (_ ∧ _))

/-- `Duration::seconds`. -/
def seconds (secs : ℤ) : Except Panic ℤ :=
  if SecondsInRange secs then .ok (secs * 1000000000) else .error .outOfRange

/-- A duration of whole minutes. -/
def minutes (n : ℤ) : ℤ := n * 60000000000

/-- `DateTime + Duration`. -/
def addDelta (t : ℤ) (d : ℤ) : Except Panic ℤ :=
  if Representable (t + d) then .ok (t + d) else .error .outOfRange

/-- `u64` division. -/
def divU64 (a b : ℕ) : Except Panic ℕ :=
  if b = 0 then .error .divideByZero else .ok (a / b)

/-- `u64` multiplication. -/
def mulU64 (a b : ℕ) : Except Panic ℕ :=
  if a * b < 2 ^ 64 then .ok (a * b) else .error .overflow

/-- `as i64` on a `u64`, which wraps. -/
def asI64 (n : ℕ) : ℤ := (n : ℤ).bmod (2 ^ 64)

/-- `as u32` on a floating-point value, which truncates and saturates. -/
def floatAsU32 (x : ℚ) : UInt32 := UInt32.ofNat (min ⌊x⌋.toNat (2 ^ 32 - 1))

/-- `as u64` on a floating-point value, which truncates and saturates. -/
def floatAsU64 (x : ℚ) : UInt64 := UInt64.ofNat (min ⌊x⌋.toNat (2 ^ 64 - 1))

/-- `u64::saturating_mul`. -/
def saturatingMul (a b : UInt64) : UInt64 :=
  UInt64.ofNat (min (a.toNat * b.toNat) (2 ^ 64 - 1))

theorem floatAsU32_floor (n : ℕ) :
    (floatAsU32 ((⌊(n : ℚ)⌋ : ℤ) : ℚ)).toNat = min n (2 ^ 32 - 1) := by
  have small : min n (2 ^ 32 - 1) < 2 ^ 32 := by omega
  unfold floatAsU32
  rw [Int.floor_natCast, Int.cast_natCast, Int.floor_natCast, Int.toNat_natCast,
    UInt32.toNat_ofNat', Nat.mod_eq_of_lt small]

theorem divU64_pos {a b : ℕ} (hb : 0 < b) : divU64 a b = .ok (a / b) := by
  simp only [divU64, Nat.ne_of_gt hb, if_false]

theorem mulU64_lt {a b : ℕ} (h : a * b < 2 ^ 64) : mulU64 a b = .ok (a * b) := by
  simp only [mulU64, h, if_true]

theorem asI64_small {n : ℕ} (h : n < 2 ^ 63) : asI64 n = n := by
  unfold asI64
  rw [Int.bmod_eq_of_le] <;> omega

theorem milliseconds_nonneg {ms : ℤ} (h : 0 ≤ ms) : milliseconds ms = .ok (ms * 1000000) := by
  have low : -(2 ^ 63 - 1) ≤ ms := by omega
  simp only [milliseconds, low, if_true]

theorem addDelta_representable {t : ℤ} {d : ℤ} (h : Representable (t + d)) :
    addDelta t d = .ok (t + d) := by
  simp only [addDelta, h, if_true]

theorem addDelta_ok {t d u : ℤ} (h : addDelta t d = .ok u) : u = t + d := by
  unfold addDelta at h
  split_ifs at h
  exact (Except.ok.inj h).symm

theorem seconds_inRange {secs : ℤ} (h : SecondsInRange secs) :
    seconds secs = .ok (secs * 1000000000) := by
  simp only [seconds, h, if_true]

/-- An instant between two representable ones is representable. -/
theorem Representable.between {a b t : ℤ} (ha : Representable a) (hb : Representable b)
    (hat : a ≤ t) (htb : t ≤ b) : Representable t :=
  ⟨ha.1.trans hat, htb.trans hb.2⟩

private theorem tdiv_nonpos {d : ℤ} (h : d ≤ 0) : d.tdiv 1000000 ≤ 0 := by
  obtain ⟨n, rfl⟩ : ∃ n : ℤ, d = -n := ⟨-d, by omega⟩
  rw [Int.neg_tdiv, Int.tdiv_eq_ediv_of_nonneg (by omega)]
  omega

/-- The difference of two representable instants fits in an `i64` of milliseconds. -/
theorem elapsed_lt {a b : ℤ} (ha : Representable a) (hb : Representable b) :
    (max (numMilliseconds (b - a)) 0).toNat < 2 ^ 63 := by
  obtain ⟨ha1, _⟩ := ha
  obtain ⟨_, hb2⟩ := hb
  unfold numMilliseconds
  have hle : (b - a).tdiv 1000000 ≤ 16544868105600000 := by
    by_cases hneg : b - a < 0
    · have : (b - a).tdiv 1000000 ≤ 0 := tdiv_nonpos (by omega)
      omega
    · rw [Int.tdiv_eq_ediv_of_nonneg (by omega)]
      omega
  omega

/-- Whole elapsed milliseconds measure the elapsed time up to less than one millisecond. -/
theorem elapsed_bounds {a b : ℤ} (hab : a ≤ b) :
    ((max (numMilliseconds (b - a)) 0).toNat : ℤ) * 1000000 ≤ b - a ∧
      b - a < ((max (numMilliseconds (b - a)) 0).toNat : ℤ) * 1000000 + 1000000 := by
  unfold numMilliseconds
  rw [Int.tdiv_eq_ediv_of_nonneg (by omega)]
  omega

/-- A clock that stepped back shows no elapsed time. -/
theorem elapsed_backward {a b : ℤ} (hba : b ≤ a) :
    (max (numMilliseconds (b - a)) 0).toNat = 0 := by
  have : (b - a).tdiv 1000000 ≤ 0 := tdiv_nonpos (by omega)
  unfold numMilliseconds
  omega

end BusinessOs.Lib.Chrono
