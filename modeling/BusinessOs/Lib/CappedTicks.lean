/- digest: A count that gains a fixed amount, capped, at regular instants: one by one or at once. -/

import Mathlib.Algebra.Order.Monoid.Defs
import Mathlib.Algebra.Order.Group.MinMax
import Mathlib.Data.Int.Order.Basic

set_option autoImplicit false
set_option relaxedAutoImplicit false

namespace BusinessOs.Lib.CappedTicks

universe u

/-! ### Instants -/

/-- How many of the instants `origin + m * width`, `1 ≤ m`, have come by `t`. -/
def ticksBy (origin width t : ℤ) : ℕ := ((t - origin) / width).toNat

section Instants

variable {origin width t : ℤ}

theorem le_ticksBy_iff (pos : 0 < width) {m : ℕ} (hm : 0 < m) :
    m ≤ ticksBy origin width t ↔ origin + m * width ≤ t := by
  have count : m ≤ ticksBy origin width t ↔ (m : ℤ) ≤ (t - origin) / width := by
    unfold ticksBy
    omega
  rw [count, Int.le_ediv_iff_mul_le pos]
  constructor <;> intro h <;> omega

/-- The instants that have come end at `t` at the latest, and the next one comes after `t`. -/
theorem ticksBy_eq_iff (pos : 0 < width) {k : ℕ} :
    ticksBy origin width t = k ↔
      (0 < k → origin + k * width ≤ t) ∧ t < origin + k * width + width := by
  have next : t < origin + k * width + width ↔ ¬ k + 1 ≤ ticksBy origin width t := by
    rw [le_ticksBy_iff pos k.succ_pos]
    push_cast
    rw [Int.add_mul, Int.one_mul]
    constructor <;> intro h <;> omega
  rw [next]
  constructor
  · rintro rfl
    exact ⟨fun some => (le_ticksBy_iff pos some).mp le_rfl, by omega⟩
  · rintro ⟨last, later⟩
    rcases Nat.eq_zero_or_pos k with rfl | some
    · omega
    · have := (le_ticksBy_iff pos some).mpr (last some)
      omega

/-- From an instant of the sequence on, the remaining ones are counted. -/
theorem ticksBy_shift (pos : 0 < width) (j : ℕ) :
    ticksBy (origin + j * width) width t = ticksBy origin width t - j := by
  have moved : (t - (origin + j * width)) / width = (t - origin) / width - j := by
    rw [← Int.sub_mul_ediv_right _ _ pos.ne']
    congr 1
    omega
  unfold ticksBy
  rw [moved]
  omega

theorem ticksBy_mono (pos : 0 < width) {t' : ℤ} (h : t ≤ t') :
    ticksBy origin width t ≤ ticksBy origin width t' := by
  have := Int.ediv_le_ediv pos (show t - origin ≤ t' - origin by omega)
  unfold ticksBy
  omega

end Instants

/-! ### Counts -/

variable {α : Type u} [AddCommMonoid α] [LinearOrder α] [IsOrderedAddMonoid α]

/-- One instant adds `rate`, and what passes `cap` is lost. -/
def tick (rate cap n : α) : α := min (n + rate) cap

/-- One capped addition does the work of `k` capped additions in a row. -/
theorem iterate_tick {rate cap n : α} (gain : 0 ≤ rate) (below : n ≤ cap) (k : ℕ) :
    (tick rate cap)^[k] n = min (n + k • rate) cap := by
  induction k with
  | zero => rw [Function.iterate_zero_apply, zero_nsmul, add_zero, min_eq_left below]
  | succ k ih =>
    have full : cap ≤ cap + rate := le_add_of_nonneg_right gain
    calc (tick rate cap)^[k + 1] n
        = min (min (n + k • rate) cap + rate) cap := by
          rw [Function.iterate_succ_apply', ih, tick]
      _ = min (min (n + k • rate + rate) (cap + rate)) cap := by rw [min_add_add_right]
      _ = min (n + k • rate + rate) cap := by rw [min_assoc, min_eq_right full]
      _ = min (n + (k + 1) • rate) cap := by rw [succ_nsmul, add_assoc]

/-- A count that was started at `origin` and has met `ticks` instants since. -/
structure Ticking (α : Type u) where
  origin : ℤ
  ticks : ℕ
  count : α

/-- Every instant up to and including `t` that has not been met yet is met now. -/
def Ticking.advance (rate cap : α) (width t : ℤ) (b : Ticking α) : Ticking α :=
  let due := ticksBy b.origin width t - b.ticks
  ⟨b.origin, b.ticks + due, (tick rate cap)^[due] b.count⟩

end BusinessOs.Lib.CappedTicks
