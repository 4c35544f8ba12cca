/- digest: UTF-8 bytes of a string and the hexadecimal text of bytes. -/

import Mathlib.Data.List.Basic
import Mathlib.Logic.Function.Basic
import Mathlib.Tactic.SplitIfs

set_option autoImplicit false
set_option relaxedAutoImplicit false

namespace BusinessOs.Lib.Bytes

/-- `as_bytes`. -/
def utf8 (s : String) : List UInt8 := s.toUTF8.data.toList

theorem utf8_injective : Function.Injective utf8 := by
  intro s t same
  exact String.toByteArray_inj.mp (ByteArray.ext (Array.toList_inj.mp same))

/-- `str::len`, on the characters of a text. -/
def byteLen (text : List Char) : ℕ := text.foldr (fun c n => c.utf8Size + n) 0

/-- `&text[..n]`; `none` is the panic at a bound inside a character or behind the text. -/
def takeBytes : ℕ → List Char → Option (List Char)
  | 0, _ => some []
  | _ + 1, [] => none
  | n + 1, c :: cs =>
    if c.utf8Size ≤ n + 1 then (takeBytes (n + 1 - c.utf8Size) cs).map (c :: ·) else none

theorem byteLen_ascii {text : List Char} (ascii : ∀ c ∈ text, c.utf8Size = 1) :
    byteLen text = text.length := by
  induction text with
  | nil => rfl
  | cons c cs ih =>
    obtain ⟨own, others⟩ := List.forall_mem_cons.mp ascii
    have rest : cs.foldr (fun c n => c.utf8Size + n) 0 = cs.length := ih others
    rw [byteLen, List.foldr_cons, own, rest, List.length_cons, Nat.add_comm]

/-- Every bound within a text of single bytes is between two characters. -/
theorem takeBytes_ascii {text : List Char} (ascii : ∀ c ∈ text, c.utf8Size = 1) {n : ℕ}
    (within : n ≤ text.length) : takeBytes n text = some (text.take n) := by
  induction n generalizing text with
  | zero => simp [takeBytes]
  | succ n ih =>
    cases text with
    | nil => exact absurd within (by simp)
    | cons c cs =>
      obtain ⟨own, others⟩ := List.forall_mem_cons.mp ascii
      have shorter : n ≤ cs.length := Nat.le_of_succ_le_succ within
      rw [takeBytes, own, if_pos (by omega), Nat.add_sub_cancel, ih others shorter, Option.map_some,
        List.take_succ_cons]

/-- The digit of a value below sixteen. -/
def hexDigit (n : ℕ) : Char := if n < 10 then Char.ofNat (48 + n) else Char.ofNat (87 + n)

/-- `hex::encode`. -/
def hexEncode (bytes : List UInt8) : String :=
  String.ofList (bytes.flatMap fun b => [hexDigit (b.toNat / 16), hexDigit (b.toNat % 16)])

theorem hexDigit_inj {m n : ℕ} (hm : m < 16) (hn : n < 16) (same : hexDigit m = hexDigit n) :
    m = n := by
  have all : ∀ i < 16, ∀ j < 16, hexDigit i = hexDigit j → i = j := by decide
  exact all m hm n hn same

theorem hexEncode_injective : Function.Injective hexEncode := by
  intro a b same
  replace same := String.ofList_injective same
  induction a generalizing b with
  | nil =>
    cases b with
    | nil => rfl
    | cons y ys => simp at same
  | cons x xs ih =>
    cases b with
    | nil => simp at same
    | cons y ys =>
      simp only [List.flatMap_cons, List.cons_append, List.nil_append, List.cons.injEq] at same
      obtain ⟨high, low, rest⟩ := same
      have hx := UInt8.toNat_lt x
      have hy := UInt8.toNat_lt y
      have div := hexDigit_inj (by omega) (by omega) high
      have mod := hexDigit_inj (by omega) (by omega) low
      have bytes : x = y := UInt8.toNat_inj.mp (by omega)
      rw [bytes, ih rest]

/-! A comparison that folds the differences of two byte strings into one byte. -/

theorem foldl_or_eq_zero {pairs : List (UInt8 × UInt8)} {acc : UInt8} :
    pairs.foldl (fun acc p => acc ||| (p.1 ^^^ p.2)) acc = 0 ↔
      acc = 0 ∧ ∀ p ∈ pairs, p.1 = p.2 := by
  induction pairs generalizing acc with
  | nil => simp
  | cons p ps ih => simp [ih, and_assoc]

theorem zip_eq_iff {a b : List UInt8} (lengths : a.length = b.length) :
    (∀ p ∈ a.zip b, p.1 = p.2) ↔ a = b := by
  induction a generalizing b with
  | nil => simp [List.eq_nil_of_length_eq_zero lengths.symm]
  | cons x xs ih =>
    cases b with
    | nil => simp at lengths
    | cons y ys =>
      rw [List.zip_cons_cons, List.forall_mem_cons, ih (Nat.succ.inj lengths), List.cons.injEq]

/-- No later pair clears a difference, and the pairs of equally long strings cover all bytes. -/
theorem comparison_iff {a b : List UInt8} :
    (if a.length ≠ b.length then false
      else (a.zip b).foldl (fun acc p => acc ||| (p.1 ^^^ p.2)) 0 == 0) = true ↔ a = b := by
  split_ifs with lengths
  · have other : a ≠ b := fun same => lengths (by rw [same])
    simp [other]
  · rw [beq_iff_eq, foldl_or_eq_zero, zip_eq_iff (not_not.mp lengths)]
    exact and_iff_right rfl

/-- An injective coding with one value replaced by a digest that is shorter than all others. -/
def pinned {α : Type} [DecidableEq α] (code : α → List UInt8) (input : α) (digest : List UInt8) :
    α → List UInt8 :=
  fun x => if x = input then digest else code x ++ List.replicate 33 0

theorem pinned_injective {α : Type} [DecidableEq α] {code : α → List UInt8} {input : α}
    {digest : List UInt8} (injective : Function.Injective code) (short : digest.length ≤ 32) :
    Function.Injective (pinned code input digest) := by
  intro x y same
  have lengths := congrArg List.length same
  unfold pinned at same lengths
  split_ifs at same lengths with hx hy hy
  · rw [hx, hy]
  · simp only [List.length_append, List.length_replicate] at lengths
    omega
  · simp only [List.length_append, List.length_replicate] at lengths
    omega
  · exact injective (List.append_cancel_right same)

end BusinessOs.Lib.Bytes
