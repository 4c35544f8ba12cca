/- Source: rust/src/orchestrator.rs (compute_backoff)
   digest: The computed backoff against the documented formula, over the exact numbers. -/

import BusinessOs.Core.Dispatch
import Mathlib.Algebra.Order.Floor.Semiring
import Mathlib.Algebra.Order.Field.Power
import Mathlib.Tactic.Linarith
import Mathlib.Tactic.Positivity

set_option autoImplicit false
set_option relaxedAutoImplicit false

namespace BusinessOs.Core.Backoff

open BusinessOs.Lib.Chrono BusinessOs.Core.Dispatch

universe u

namespace Config

variable (config : OrchestratorConfig)

/-- The delay before jitter, for an exponent of either sign. -/
def capped (exponent : ℤ) : ℚ :=
  min (config.baseBackoffMs.toNat * config.backoffMultiplier ^ exponent) config.maxBackoffMs.toNat

/-- `min(base * multiplier^attempt, max)`, as the doc comment has it. -/
def documented (attempt : UInt32) : ℚ :=
  min (config.baseBackoffMs.toNat * config.backoffMultiplier ^ attempt.toNat)
    config.maxBackoffMs.toNat

end Config

open Config

/-- The exponent that the signed cast makes of an attempt count. -/
def exponent (attempt : UInt32) : ℤ := (attempt.toNat : ℤ).bmod (2 ^ 32)

/-- What the random source can give. -/
def Sample (x : ℚ) : Prop := 0 ≤ x ∧ x < 1

/-- Settings under which the formula describes a backoff. -/
structure Growing (config : OrchestratorConfig) : Prop where
  multiplier : 1 ≤ config.backoffMultiplier
  jitter : 0 ≤ config.jitterPct ∧ config.jitterPct ≤ 1

section Exponent

variable {attempt : UInt32}

theorem exponent_small (small : attempt.toNat < 2 ^ 31) : exponent attempt = attempt.toNat := by
  unfold exponent
  generalize attempt.toNat = n at small ⊢
  rw [Int.bmod_eq_of_le] <;> omega

theorem exponent_large (large : 2 ^ 31 ≤ attempt.toNat) :
    exponent attempt = attempt.toNat - 2 ^ 32 := by
  unfold exponent
  have bound := attempt.toNat_lt
  generalize attempt.toNat = n at bound large ⊢
  rw [Int.bmod_def]
  split_ifs <;> omega

theorem exponent_le : exponent attempt ≤ attempt.toNat := by
  rcases lt_or_ge attempt.toNat (2 ^ 31) with small | large
  · exact (exponent_small small).le
  · rw [exponent_large large]
    omega

end Exponent

section Capped

variable {config : OrchestratorConfig} {e e' : ℤ}

theorem documented_eq (attempt : UInt32) :
    documented config attempt = capped config attempt.toNat := by
  rw [documented, capped, zpow_natCast]

theorem capped_zero :
    capped config 0 = min (config.baseBackoffMs.toNat : ℚ) config.maxBackoffMs.toNat := by
  rw [capped, zpow_zero, mul_one]

theorem capped_nonneg (growing : Growing config) : 0 ≤ capped config e := by
  have multiplier : 0 < config.backoffMultiplier := lt_of_lt_of_le one_pos growing.multiplier
  exact le_min (by positivity) (by positivity)

theorem capped_mono (growing : Growing config) (le : e ≤ e') :
    capped config e ≤ capped config e' := by
  have powers : config.backoffMultiplier ^ e ≤ config.backoffMultiplier ^ e' :=
    zpow_le_zpow_right₀ growing.multiplier le
  exact min_le_min_right _ (mul_le_mul_of_nonneg_left powers (Nat.cast_nonneg _))

theorem capped_le_max : capped config e ≤ config.maxBackoffMs.toNat := min_le_right _ _

/-- A negative exponent shrinks the base, unless there is nothing to shrink. -/
theorem base_le_capped_negative (growing : Growing config) (negative : e < 0) :
    (config.baseBackoffMs.toNat : ℚ) ≤ capped config e ↔
      config.baseBackoffMs.toNat ≤ config.maxBackoffMs.toNat ∧
        (config.baseBackoffMs = 0 ∨ config.backoffMultiplier = 1) := by
  rw [capped, le_min_iff, Nat.cast_le, and_comm, and_congr_right_iff]
  intro _
  constructor
  · intro kept
    by_contra other
    obtain ⟨some_base, grows⟩ := not_or.mp other
    have base_pos : (0 : ℚ) < config.baseBackoffMs.toNat := by
      have nonzero : config.baseBackoffMs.toNat ≠ 0 := fun zero =>
        some_base (UInt64.toNat_inj.mp zero)
      exact_mod_cast Nat.pos_of_ne_zero nonzero
    have above_one : 1 < config.backoffMultiplier :=
      lt_of_le_of_ne growing.multiplier (Ne.symm grows)
    have shrunk : config.backoffMultiplier ^ e < 1 := zpow_lt_one_of_neg₀ above_one negative
    nlinarith
  · rintro (none | constant)
    · simp [none]
    · rw [constant, one_zpow, mul_one]

end Capped

section Delay

variable {ω : Type u} {self : Orchestrator ω} {attempt : UInt32} {x : ℚ}

theorem computeBackoff_first : self.computeBackoff 0 x = self.config.baseBackoffMs := rfl

theorem floatAsU64_toNat (x : ℚ) : (floatAsU64 x).toNat = min ⌊x⌋₊ (2 ^ 64 - 1) := by
  have small : min ⌊x⌋₊ (2 ^ 64 - 1) < 2 ^ 64 := by omega
  rw [floatAsU64, Int.floor_toNat, UInt64.toNat_ofNat', Nat.mod_eq_of_lt small]

/-- After the first attempt the delay is the capped one, scaled by the jitter. -/
theorem computeBackoff_later (growing : Growing self.config) (later : attempt ≠ 0)
    (sample : Sample x) :
    (self.computeBackoff attempt x).toNat =
      min ⌊(1 + (2 * x - 1) * self.config.jitterPct) * capped self.config (exponent attempt)⌋₊
        (2 ^ 64 - 1) := by
  obtain ⟨lower, upper⟩ := growing.jitter
  obtain ⟨low, high⟩ := sample
  have scale : 0 ≤ 1 + (2 * x - 1) * self.config.jitterPct := by nlinarith
  have value : capped self.config (exponent attempt) + (x - 1 / 2) * 2 *
      (capped self.config (exponent attempt) * self.config.jitterPct) =
        (1 + (2 * x - 1) * self.config.jitterPct) * capped self.config (exponent attempt) := by
    ring
  have nonneg := mul_nonneg scale (capped_nonneg (e := exponent attempt) growing)
  rw [Orchestrator.computeBackoff, if_neg later]
  exact (congrArg (fun y => (floatAsU64 (max y 0)).toNat) value).trans
    (by rw [max_eq_left nonneg, floatAsU64_toNat])

/-- The whole milliseconds of a delay that is scaled down fit an `u64`. -/
theorem floor_capped_lt (growing : Growing self.config) {e : ℤ} {scale : ℚ} (le : scale ≤ 1) :
    ⌊scale * capped self.config e⌋₊ ≤ 2 ^ 64 - 1 := by
  have below : scale * capped self.config e ≤ self.config.maxBackoffMs.toNat :=
    (mul_le_of_le_one_left (capped_nonneg growing) le).trans capped_le_max
  have bound := self.config.maxBackoffMs.toNat_lt
  have floors := Nat.floor_le_floor below
  rw [Nat.floor_natCast] at floors
  omega

end Delay

section Formula

variable {ω : Type u} (self : Orchestrator ω) (attempt : UInt32)

/-- The delay lies in the documented interval, whatever the jitter. -/
def FollowsFormula : Prop :=
  ∀ x, Sample x →
    ⌊(1 - self.config.jitterPct) * documented self.config attempt⌋₊ ≤
        (self.computeBackoff attempt x).toNat ∧
      ((self.computeBackoff attempt x).toNat : ℚ) ≤
        (1 + self.config.jitterPct) * documented self.config attempt

/-- No earlier attempt waits longer. -/
def Nondecreasing : Prop :=
  ∀ k ≤ attempt, ∀ x y, Sample x → Sample y →
    (self.computeBackoff k x).toNat ≤ (self.computeBackoff attempt y).toNat

variable {self attempt}

/-- The first delay has neither a cap nor jitter. -/
theorem followsFormula_first (growing : Growing self.config) :
    FollowsFormula self 0 ↔
      (self.config.baseBackoffMs.toNat : ℚ) ≤
        (1 + self.config.jitterPct) * self.config.maxBackoffMs.toNat := by
  obtain ⟨lower, upper⟩ := growing.jitter
  have formula : documented self.config 0 =
      min (self.config.baseBackoffMs.toNat : ℚ) self.config.maxBackoffMs.toNat := by
    rw [documented_eq]
    exact capped_zero
  have base : (self.config.baseBackoffMs.toNat : ℚ) ≤
      (1 + self.config.jitterPct) * self.config.baseBackoffMs.toNat :=
    le_mul_of_one_le_left (Nat.cast_nonneg _) (by linarith)
  have above : ((self.config.baseBackoffMs.toNat : ℚ) ≤
      (1 + self.config.jitterPct) * documented self.config 0) ↔
        (self.config.baseBackoffMs.toNat : ℚ) ≤
          (1 + self.config.jitterPct) * self.config.maxBackoffMs.toNat := by
    rw [formula, mul_min_of_nonneg _ _ (by linarith : 0 ≤ 1 + self.config.jitterPct), le_min_iff]
    exact and_iff_right base
  have below : ⌊(1 - self.config.jitterPct) * documented self.config 0⌋₊ ≤
      self.config.baseBackoffMs.toNat := by
    have shrunk : (1 - self.config.jitterPct) * documented self.config 0 ≤
        self.config.baseBackoffMs.toNat := by
      have small : documented self.config 0 ≤ self.config.baseBackoffMs.toNat :=
        formula ▸ min_le_left _ _
      have nonneg : 0 ≤ documented self.config 0 := by
        rw [documented_eq]
        exact capped_nonneg growing
      nlinarith
    exact Nat.floor_le_of_le shrunk
  rw [← above]
  constructor
  · intro follows
    exact (follows 0 ⟨le_rfl, one_pos⟩).2
  · intro bound x _
    exact ⟨below, bound⟩

/-- A later delay follows the formula unless the exponent wraps and the loss is a millisecond. -/
theorem followsFormula_later (growing : Growing self.config) (later : attempt ≠ 0) :
    FollowsFormula self attempt ↔
      ⌊(1 - self.config.jitterPct) * documented self.config attempt⌋₊ ≤
        ⌊(1 - self.config.jitterPct) * capped self.config (exponent attempt)⌋₊ := by
  obtain ⟨lower, upper⟩ := growing.jitter
  have nonneg : 0 ≤ capped self.config (exponent attempt) := capped_nonneg growing
  have smaller : capped self.config (exponent attempt) ≤ documented self.config attempt := by
    rw [documented_eq]
    exact capped_mono growing exponent_le
  constructor
  · intro follows
    have least := (follows 0 ⟨le_rfl, one_pos⟩).1
    rw [computeBackoff_later growing later ⟨le_rfl, one_pos⟩] at least
    have scale : 1 + (2 * 0 - 1) * self.config.jitterPct = 1 - self.config.jitterPct := by ring
    rw [scale] at least
    exact least.trans (min_le_left _ _)
  · intro kept x sample
    rw [computeBackoff_later growing later sample]
    obtain ⟨low, high⟩ := sample
    have least : (1 - self.config.jitterPct) * capped self.config (exponent attempt) ≤
        (1 + (2 * x - 1) * self.config.jitterPct) * capped self.config (exponent attempt) :=
      mul_le_mul_of_nonneg_right (by nlinarith) nonneg
    have most : (1 + (2 * x - 1) * self.config.jitterPct) * capped self.config (exponent attempt) ≤
        (1 + self.config.jitterPct) * documented self.config attempt :=
      mul_le_mul (by nlinarith) smaller nonneg (by linarith)
    have scaled : 0 ≤
        (1 + (2 * x - 1) * self.config.jitterPct) * capped self.config (exponent attempt) :=
      mul_nonneg (by nlinarith) nonneg
    constructor
    · exact kept.trans (le_min (Nat.floor_le_floor least)
        (floor_capped_lt growing (by linarith)))
    · calc ((min ⌊(1 + (2 * x - 1) * self.config.jitterPct) *
              capped self.config (exponent attempt)⌋₊ (2 ^ 64 - 1) : ℕ) : ℚ)
          ≤ (⌊(1 + (2 * x - 1) * self.config.jitterPct) *
              capped self.config (exponent attempt)⌋₊ : ℚ) := Nat.cast_le.mpr (min_le_left _ _)
        _ ≤ _ := (Nat.floor_le scaled).trans most

/-- Without jitter every later delay is the capped one, whatever is sampled. -/
theorem computeBackoff_steady (growing : Growing self.config)
    (steady : self.config.jitterPct = 0) (later : attempt ≠ 0) {x : ℚ} (sample : Sample x) :
    (self.computeBackoff attempt x).toNat = ⌊capped self.config (exponent attempt)⌋₊ := by
  have fits : ⌊1 * capped self.config (exponent attempt)⌋₊ ≤ 2 ^ 64 - 1 :=
    floor_capped_lt growing le_rfl
  rw [one_mul] at fits
  rw [computeBackoff_later growing later sample, steady, mul_zero, add_zero, one_mul,
    min_eq_left fits]

/-- The first delay is no longer than a later one. -/
theorem base_le_capped_iff (growing : Growing self.config) :
    (self.config.baseBackoffMs.toNat : ℚ) ≤ capped self.config (exponent attempt) ↔
      self.config.baseBackoffMs.toNat ≤ self.config.maxBackoffMs.toNat ∧
        (attempt.toNat < 2 ^ 31 ∨ self.config.baseBackoffMs = 0 ∨
          self.config.backoffMultiplier = 1) := by
  rcases lt_or_ge attempt.toNat (2 ^ 31) with small | large
  · have grown : capped self.config 0 ≤ capped self.config (exponent attempt) := by
      rw [exponent_small small]
      exact capped_mono growing (Int.natCast_nonneg _)
    rw [capped_zero] at grown
    constructor
    · intro kept
      exact ⟨Nat.cast_le.mp (kept.trans capped_le_max), .inl small⟩
    · intro condition
      rwa [min_eq_left (Nat.cast_le.mpr condition.1)] at grown
  · have negative : exponent attempt < 0 := by
      have bound := attempt.toNat_lt
      rw [exponent_large large]
      generalize attempt.toNat = n at bound ⊢
      omega
    rw [base_le_capped_negative growing negative, or_iff_right (not_lt.mpr large)]

/-- Under the same condition the capped delays rise with the attempts. -/
theorem capped_exponent_mono (growing : Growing self.config) {k : UInt32} (le : k ≤ attempt)
    (condition : attempt.toNat < 2 ^ 31 ∨ self.config.baseBackoffMs = 0 ∨
      self.config.backoffMultiplier = 1) :
    capped self.config (exponent k) ≤ capped self.config (exponent attempt) := by
  rcases condition with small | none | constant
  · have counts : k.toNat ≤ attempt.toNat := UInt32.le_iff_toNat_le.mp le
    rw [exponent_small small, exponent_small (counts.trans_lt small)]
    exact capped_mono growing (Int.ofNat_le.mpr counts)
  · simp [capped, none]
  · simp [capped, constant]

/-- Without jitter the delays do not fall exactly when the first one is not too long already. -/
theorem nondecreasing_iff (growing : Growing self.config)
    (steady : self.config.jitterPct = 0) :
    Nondecreasing self attempt ↔ attempt = 0 ∨
      (self.config.baseBackoffMs.toNat ≤ self.config.maxBackoffMs.toNat ∧
        (attempt.toNat < 2 ^ 31 ∨ self.config.baseBackoffMs = 0 ∨
          self.config.backoffMultiplier = 1)) := by
  have start : Sample 0 := ⟨le_rfl, one_pos⟩
  by_cases first : attempt = 0
  · subst first
    refine iff_of_true (fun k le x y _ _ => ?_) (.inl rfl)
    obtain rfl : k = 0 := UInt32.le_zero_iff.mp le
    exact le_rfl
  · rw [or_iff_right first]
    constructor
    · intro rises
      have initial := rises 0 UInt32.zero_le 0 0 start start
      rw [computeBackoff_first, computeBackoff_steady growing steady first start] at initial
      exact (base_le_capped_iff growing).mp
        ((Nat.le_floor_iff (capped_nonneg growing)).mp initial)
    · intro condition k le x y sample sample'
      rw [computeBackoff_steady growing steady first sample']
      by_cases earliest : k = 0
      · rw [earliest, computeBackoff_first]
        exact Nat.le_floor ((base_le_capped_iff growing).mpr condition)
      · rw [computeBackoff_steady growing steady earliest sample]
        exact Nat.floor_le_floor (capped_exponent_mono growing le condition.2)

/-- The delay of an attempt follows the documented formula exactly when the uncapped first delay is
within its bounds and the exponent's wrap loses nothing; and without jitter it is nondecreasing up
to this attempt exactly when the first delay is no longer than the cap and nothing wraps. -/
theorem backoff_formula_iff (self : Orchestrator ω) (attempt : UInt32)
    (growing : Growing self.config) :
    (FollowsFormula self attempt ↔
      (attempt = 0 → (self.config.baseBackoffMs.toNat : ℚ) ≤
        (1 + self.config.jitterPct) * self.config.maxBackoffMs.toNat) ∧
      (2 ^ 31 ≤ attempt.toNat →
        ⌊(1 - self.config.jitterPct) * documented self.config attempt⌋₊ ≤
          ⌊(1 - self.config.jitterPct) * capped self.config (attempt.toNat - 2 ^ 32)⌋₊)) ∧
    (self.config.jitterPct = 0 → (Nondecreasing self attempt ↔
      attempt = 0 ∨ (self.config.baseBackoffMs.toNat ≤ self.config.maxBackoffMs.toNat ∧
        (attempt.toNat < 2 ^ 31 ∨ self.config.baseBackoffMs = 0 ∨
          self.config.backoffMultiplier = 1)))) := by
  refine ⟨?_, nondecreasing_iff growing⟩
  by_cases first : attempt = 0
  · subst first
    have small : ¬2 ^ 31 ≤ (0 : UInt32).toNat := by decide
    rw [followsFormula_first growing, forall_prop_of_true rfl, forall_prop_of_false small, and_true]
  · rw [followsFormula_later growing first, forall_prop_of_false first, true_and]
    rcases lt_or_ge attempt.toNat (2 ^ 31) with small | large
    · rw [exponent_small small, ← documented_eq, forall_prop_of_false (not_le.mpr small)]
      exact iff_of_true le_rfl trivial
    · rw [exponent_large large, forall_prop_of_true large]

/-- The third attempt under the default configuration. -/
theorem backoff_formula_default :
    FollowsFormula (Orchestrator.new .default : Orchestrator Unit) 3 :=
  (backoff_formula_iff (Orchestrator.new .default : Orchestrator Unit) 3
    ⟨by decide +kernel, by decide +kernel⟩).1.mpr
    ⟨fun impossible => absurd impossible (by decide),
      fun impossible => absurd impossible (by decide)⟩

/-- Half a second is the cap here, and the first delay is a whole one. -/
theorem backoff_uncapped :
    ¬∀ (self : Orchestrator Unit) (attempt : UInt32), Growing self.config →
      FollowsFormula self attempt := by
  intro always
  have follows := always
    (Orchestrator.new { OrchestratorConfig.default with maxBackoffMs := 500, jitterPct := 0 }) 0
    ⟨by decide +kernel, by decide +kernel⟩ 0 ⟨le_rfl, one_pos⟩
  exact absurd follows.2 (by decide +kernel)

end Formula

end BusinessOs.Core.Backoff
