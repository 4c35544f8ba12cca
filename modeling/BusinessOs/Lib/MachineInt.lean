/- digest: Fixed-width arithmetic under both overflow modes, and the text an `i64` is read from. -/

import BusinessOs.Lib.Chrono
import Mathlib.Data.List.Basic

set_option autoImplicit false
set_option relaxedAutoImplicit false

namespace BusinessOs.Lib.MachineInt

open BusinessOs.Lib.Chrono

/-- Whether a build checks its arithmetic or lets it wrap. -/
inductive Overflow
  | checked | wrapping
  deriving DecidableEq, Repr

/-- The integers that an `i64` holds. -/
def InRange (n : ℤ) : Prop := -2 ^ 63 ≤ n ∧ n < 2 ^ 63

instance (n : ℤ) : Decidable (InRange n) := inferInstanceAs (Decidable (_ ∧ _))

/-- The `i64` for the exact result of an operation. -/
def ofExact (mode : Overflow) (n : ℤ) : Except Panic ℤ :=
  if InRange n then .ok n
  else match mode with
    | .checked => .error .overflow
    | .wrapping => .ok (n.bmod (2 ^ 64))

/-- `i64` subtraction. -/
def subI64 (mode : Overflow) (a b : ℤ) : Except Panic ℤ := ofExact mode (a - b)

/-- `i64::abs`, whose one overflow is at the least integer. -/
def absI64 (mode : Overflow) (a : ℤ) : Except Panic ℤ := ofExact mode |a|

/-- How far apart two `i64` are, as their difference and its magnitude compute it. -/
def distance (mode : Overflow) (a b : ℤ) : Except Panic ℤ := do
  let difference ← subI64 mode a b
  absI64 mode difference

/-- `u32` addition. -/
def addU32 (mode : Overflow) (a b : UInt32) : Except Panic UInt32 :=
  if a.toNat + b.toNat < 2 ^ 32 then .ok (a + b)
  else match mode with
    | .checked => .error .overflow
    | .wrapping => .ok (a + b)

/-- A chain of `u32` additions, from the left. -/
def sumU32 (mode : Overflow) (first : UInt32) (rest : List UInt32) : Except Panic UInt32 :=
  rest.foldlM (addU32 mode) first

theorem addU32_small (mode : Overflow) {a b : UInt32} (small : a.toNat + b.toNat < 2 ^ 32) :
    addU32 mode a b = .ok (a + b) ∧ (a + b).toNat = a.toNat + b.toNat := by
  refine ⟨if_pos small, ?_⟩
  rw [UInt32.toNat_add, Nat.mod_eq_of_lt small]

/-- Without an overflow the chain has the exact sum, in both modes. -/
theorem sumU32_small (mode : Overflow) {first : UInt32} {rest : List UInt32}
    (small : first.toNat + (rest.map UInt32.toNat).sum < 2 ^ 32) :
    sumU32 mode first rest = .ok (UInt32.ofNat (first.toNat + (rest.map UInt32.toNat).sum)) := by
  induction rest generalizing first with
  | nil => exact congrArg Except.ok (UInt32.ofNat_toNat (x := first)).symm
  | cons n rest ih =>
    rw [List.map_cons, List.sum_cons, ← Nat.add_assoc] at small ⊢
    obtain ⟨added, value⟩ := addU32_small mode (a := first) (b := n) (by omega)
    rw [← value] at small ⊢
    have step : sumU32 mode first (n :: rest) =
        addU32 mode first n >>= fun sum => sumU32 mode sum rest := List.foldlM_cons
    rw [step, added, ok_bind]
    exact ih small

/-- A checked chain that goes through has not overflowed. -/
theorem sumU32_checked {first total : UInt32} {rest : List UInt32}
    (summed : sumU32 .checked first rest = .ok total) :
    first.toNat + (rest.map UInt32.toNat).sum < 2 ^ 32 := by
  induction rest generalizing first with
  | nil => exact first.toNat_lt
  | cons n rest ih =>
    have step : sumU32 .checked first (n :: rest) =
        addU32 .checked first n >>= fun sum => sumU32 .checked sum rest := List.foldlM_cons
    rw [step] at summed
    by_cases small : first.toNat + n.toNat < 2 ^ 32
    · obtain ⟨added, value⟩ := addU32_small .checked small
      rw [added, ok_bind] at summed
      have rest_small := ih summed
      rw [List.map_cons, List.sum_cons]
      omega
    · rw [addU32, if_neg small] at summed
      exact nomatch summed

theorem ofExact_of_inRange {mode : Overflow} {n : ℤ} (h : InRange n) :
    ofExact mode n = .ok n := if_pos h

section Distance

variable {mode : Overflow} {n a b : ℤ}

/-- A wrapped result that is out of range by less than one turn. -/
theorem bmod_of_le (above : 2 ^ 63 ≤ n) (below : n < 2 ^ 64) :
    n.bmod (2 ^ 64) = n - 2 ^ 64 := by
  rw [Int.bmod_def]
  split_ifs <;> omega

theorem bmod_of_lt (below : n < -2 ^ 63) (above : -2 ^ 64 ≤ n) :
    n.bmod (2 ^ 64) = n + 2 ^ 64 := by
  rw [Int.bmod_def]
  split_ifs <;> omega

theorem distance_near (near : |a - b| < 2 ^ 63) : distance mode a b = .ok |a - b| := by
  have difference : InRange (a - b) := ⟨by grind, by grind⟩
  have magnitude : InRange |a - b| := ⟨by grind, near⟩
  rw [distance, subI64, ofExact_of_inRange difference, ok_bind, absI64,
    ofExact_of_inRange magnitude]

theorem distance_checked_far (far : 2 ^ 63 ≤ |a - b|) :
    distance .checked a b = .error .overflow := by
  by_cases difference : InRange (a - b)
  · have magnitude : ¬InRange |a - b| := fun range => absurd range.2 (by omega)
    rw [distance, subI64, ofExact_of_inRange difference, ok_bind, absI64, ofExact,
      if_neg magnitude]
  · rw [distance, subI64, ofExact, if_neg difference]
    rfl

/-- At exactly half a turn the magnitude wraps to the least integer. -/
theorem distance_wrapping_half (half : |a - b| = 2 ^ 63) :
    distance .wrapping a b = .ok (-2 ^ 63) := by
  have wrapped : subI64 .wrapping a b = .ok (-2 ^ 63) := by
    by_cases difference : InRange (a - b)
    · have least : a - b = -2 ^ 63 := by grind [InRange]
      rw [subI64, ofExact_of_inRange difference, least]
    · have most : a - b = 2 ^ 63 := by grind [InRange]
      rw [subI64, ofExact, if_neg difference, most]
      rfl
  rw [distance, wrapped]
  rfl

/-- Beyond half a turn the distance is taken the other way round. -/
theorem distance_wrapping_far (first : InRange a) (second : InRange b) (far : 2 ^ 63 < |a - b|) :
    distance .wrapping a b = .ok (2 ^ 64 - |a - b|) := by
  obtain ⟨a_low, a_high⟩ := first
  obtain ⟨b_low, b_high⟩ := second
  rcases le_or_gt 0 (a - b) with positive | negative
  · rw [abs_of_nonneg positive] at far ⊢
    have difference : ¬InRange (a - b) := fun range => absurd range.2 (by omega)
    have magnitude : |a - b - 2 ^ 64| = 2 ^ 64 - (a - b) := by
      rw [abs_of_nonpos (by omega)]
      omega
    have range : InRange (2 ^ 64 - (a - b)) := ⟨by omega, by omega⟩
    rw [distance, subI64, ofExact, if_neg difference, bmod_of_le (by omega) (by omega)]
    rw [ok_bind, absI64, magnitude, ofExact_of_inRange range]
  · rw [abs_of_neg negative] at far ⊢
    have difference : ¬InRange (a - b) := fun range => absurd range.1 (by omega)
    have magnitude : |a - b + 2 ^ 64| = 2 ^ 64 - -(a - b) := by
      rw [abs_of_nonneg (by omega)]
      omega
    have range : InRange (2 ^ 64 - -(a - b)) := ⟨by omega, by omega⟩
    rw [distance, subI64, ofExact, if_neg difference, bmod_of_lt (by omega) (by omega)]
    rw [ok_bind, absI64, magnitude, ofExact_of_inRange range]

end Distance

def digitValue (c : Char) : Option ℕ :=
  if '0' ≤ c ∧ c ≤ '9' then some (c.toNat - 48) else none

/-- The digits of a text read behind an accumulator. -/
def decimal (acc : ℕ) : List Char → Option ℕ
  | [] => some acc
  | c :: cs => (digitValue c).bind fun d => decimal (10 * acc + d) cs

/-- At least one digit and nothing else. -/
def magnitude : List Char → Option ℕ
  | [] => none
  | c :: cs => decimal 0 (c :: cs)

/-- An optional sign in front of digits. -/
def integer : List Char → Option ℤ
  | '+' :: cs => (magnitude cs).map fun n : ℕ => (n : ℤ)
  | '-' :: cs => (magnitude cs).map fun n : ℕ => -(n : ℤ)
  | cs => (magnitude cs).map fun n : ℕ => (n : ℤ)

/-- `str::parse::<i64>`. -/
def parseI64 (text : String) : Option ℤ :=
  (integer text.toList).filter fun n => decide (InRange n)

section Digits

variable {c : Char} {cs ds : List Char} {acc n : ℕ} {k m : ℤ}

theorem decimal_append :
    decimal acc (cs ++ ds) = (decimal acc cs).bind fun n => decimal n ds := by
  induction cs generalizing acc with
  | nil => rfl
  | cons c cs ih =>
    cases value : digitValue c with
    | none => simp [decimal, value]
    | some d => simp [decimal, value, ih]

theorem decimal_lower (h : decimal acc cs = some n) : acc ≤ n := by
  induction cs generalizing acc with
  | nil =>
    obtain rfl := Option.some.inj h
    exact le_rfl
  | cons c cs ih =>
    obtain ⟨d, _, rest⟩ := Option.bind_eq_some_iff.mp h
    have tail := ih rest
    omega

theorem decimal_chars (h : decimal acc cs = some n) : ∀ c ∈ cs, digitValue c ≠ none := by
  induction cs generalizing acc with
  | nil => simp
  | cons c cs ih =>
    obtain ⟨d, value, rest⟩ := Option.bind_eq_some_iff.mp h
    intro x member
    rcases List.mem_cons.mp member with rfl | later
    · simp [value]
    · exact ih rest x later

theorem magnitude_eq (h : magnitude cs = some n) : cs ≠ [] ∧ decimal 0 cs = some n := by
  cases cs with
  | nil => exact absurd h (by simp [magnitude])
  | cons c cs => exact ⟨List.cons_ne_nil _ _, h⟩

/-- Every digit that is added multiplies the value by ten. -/
theorem magnitude_append (h : magnitude cs = some acc) (more : ds ≠ [])
    (longer : magnitude (cs ++ ds) = some n) : 10 * acc ≤ n := by
  obtain ⟨_, first⟩ := magnitude_eq h
  obtain ⟨_, both⟩ := magnitude_eq longer
  rw [decimal_append, first, Option.bind_some] at both
  cases ds with
  | nil => exact absurd rfl more
  | cons d ds =>
    obtain ⟨value, _, rest⟩ := Option.bind_eq_some_iff.mp both
    have bound := decimal_lower rest
    omega

/-- The three shapes of a text that is an integer. -/
theorem integer_cases (h : integer cs = some k) :
    (∃ ds, ∃ n : ℕ, cs = '+' :: ds ∧ magnitude ds = some n ∧ k = n) ∨
      (∃ ds, ∃ n : ℕ, cs = '-' :: ds ∧ magnitude ds = some n ∧ k = -n) ∨
      (∃ n : ℕ, magnitude cs = some n ∧ k = n) := by
  unfold integer at h
  split at h
  · obtain ⟨n, value, rfl⟩ := Option.map_eq_some_iff.mp h
    exact .inl ⟨_, n, rfl, value, rfl⟩
  · obtain ⟨n, value, rfl⟩ := Option.map_eq_some_iff.mp h
    exact .inr (.inl ⟨_, n, rfl, value, rfl⟩)
  · obtain ⟨n, value, rfl⟩ := Option.map_eq_some_iff.mp h
    exact .inr (.inr ⟨n, value, rfl⟩)

theorem digitValue_sign (h : c = '+' ∨ c = '-') : digitValue c = none := by
  rcases h with rfl | rfl <;> rfl

theorem magnitude_signed (h : c = '+' ∨ c = '-') : magnitude (c :: cs) = none := by
  rw [magnitude, decimal, digitValue_sign h, Option.bind_none]

/-- A positive integer grows tenfold with every digit that is added behind it. -/
theorem integer_append (h : integer cs = some k) (positive : 0 < k) (more : ds ≠ [])
    (longer : integer (cs ++ ds) = some m) : 10 * k ≤ m := by
  rcases integer_cases h with ⟨rest, a, rfl, value, rfl⟩ | ⟨rest, a, rfl, value, rfl⟩ |
    ⟨a, value, rfl⟩
  · obtain ⟨b, behind, rfl⟩ := Option.map_eq_some_iff.mp longer
    have bound := magnitude_append value more behind
    omega
  · omega
  · rcases integer_cases longer with ⟨rest, b, signed, _⟩ | ⟨rest, b, signed, _⟩ |
      ⟨b, behind, rfl⟩
    · obtain ⟨nonempty, _⟩ := magnitude_eq value
      obtain ⟨c, tail, rfl⟩ := List.exists_cons_of_ne_nil nonempty
      obtain ⟨rfl, _⟩ := List.cons.inj signed
      exact absurd value (by simp [magnitude_signed])
    · obtain ⟨nonempty, _⟩ := magnitude_eq value
      obtain ⟨c, tail, rfl⟩ := List.exists_cons_of_ne_nil nonempty
      obtain ⟨rfl, _⟩ := List.cons.inj signed
      exact absurd value (by simp [magnitude_signed])
    · have bound := magnitude_append value more behind
      omega

/-- An integer is written with signs and digits only. -/
theorem integer_chars (h : integer cs = some k) :
    ∀ c ∈ cs, c = '+' ∨ c = '-' ∨ digitValue c ≠ none := by
  have digits : ∀ {ds : List Char} {n : ℕ}, magnitude ds = some n → ∀ c ∈ ds,
      digitValue c ≠ none := fun value => decimal_chars (magnitude_eq value).2
  intro c member
  rcases integer_cases h with ⟨rest, a, rfl, value, _⟩ | ⟨rest, a, rfl, value, _⟩ | ⟨a, value, _⟩
  · rcases List.mem_cons.mp member with rfl | later
    · exact .inl rfl
    · exact .inr (.inr (digits value c later))
  · rcases List.mem_cons.mp member with rfl | later
    · exact .inr (.inl rfl)
    · exact .inr (.inr (digits value c later))
  · exact .inr (.inr (digits value c member))

theorem parseI64_eq {text : String} (h : parseI64 text = some k) :
    integer text.toList = some k ∧ InRange k := by
  obtain ⟨value, range⟩ := Option.filter_eq_some_iff.mp h
  exact ⟨value, of_decide_eq_true range⟩

end Digits

example : parseI64 "+0012" = some 12 ∧ parseI64 "-7" = some (-7) ∧ parseI64 "1_000" = none ∧
    parseI64 "9223372036854775808" = none := by decide

end BusinessOs.Lib.MachineInt
