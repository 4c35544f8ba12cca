/- digest: Printers of JSON string and number literals, and what makes their texts separable. -/

import BusinessOs.Lib.Json.Tree
import Mathlib.Data.List.Basic
import Mathlib.Logic.Function.Basic
import Mathlib.Tactic.Common

set_option autoImplicit false
set_option relaxedAutoImplicit false

namespace BusinessOs.Lib.Json.Literals

open BusinessOs.Lib.Json.Tree

/-- The characters that number literals are written with. -/
def isNumberChar (c : Char) : Bool :=
  c.isDigit || c == '-' || c == '+' || c == '.' || c == 'e' || c == 'E'

/-- Text between quotes in which every quote and every backslash is escaped. -/
inductive Escaped : List Char → Prop
  | nil : Escaped []
  | plain {c : Char} {cs : List Char} (quote : c ≠ '"') (slash : c ≠ '\\') :
      Escaped cs → Escaped (c :: cs)
  | escape (c : Char) {cs : List Char} : Escaped cs → Escaped ('\\' :: c :: cs)

/-- A printer of literals that is injective, quotes strings, and writes numbers with number
characters only. -/
structure LiteralPrinter where
  number : Number → List Char
  string : String → List Char
  number_injective : Function.Injective number
  number_ne_nil : ∀ n, number n ≠ []
  number_chars : ∀ n, ∀ c ∈ number n, isNumberChar c
  string_injective : Function.Injective string
  string_quoted : ∀ s, ∃ body, string s = '"' :: (body ++ ['"']) ∧ Escaped body

/-- The rest of a text does not go on with a number character. -/
def Delimited (rest : List Char) : Prop := ∀ c ∈ rest.head?, isNumberChar c = false

theorem delimited_cons {c : Char} {rest : List Char} (h : isNumberChar c = false) :
    Delimited (c :: rest) := by
  intro d member
  obtain rfl : c = d := by simpa using member
  exact h

theorem delimited_nil : Delimited [] := by
  intro c member
  simp at member

/-- Two number texts before delimiters are the same text. -/
theorem number_text_unique {a b r s : List Char} (ha : ∀ c ∈ a, isNumberChar c)
    (hb : ∀ c ∈ b, isNumberChar c) (hr : Delimited r) (hs : Delimited s)
    (same : a ++ r = b ++ s) : a = b ∧ r = s := by
  induction a generalizing b with
  | nil =>
    cases b with
    | nil => exact ⟨rfl, same⟩
    | cons d b =>
      have starts : r = d :: (b ++ s) := same
      have number := hb d List.mem_cons_self
      rw [hr d (by simp [starts])] at number
      exact absurd number Bool.false_ne_true
  | cons c a ih =>
    cases b with
    | nil =>
      have starts : s = c :: (a ++ r) := same.symm
      have number := ha c List.mem_cons_self
      rw [hs c (by simp [starts])] at number
      exact absurd number Bool.false_ne_true
    | cons d b =>
      obtain ⟨rfl, rest⟩ : c = d ∧ a ++ r = b ++ s := by simpa using same
      obtain ⟨rfl, ends⟩ := ih (fun x hx => ha x (List.mem_cons_of_mem _ hx))
        (fun x hx => hb x (List.mem_cons_of_mem _ hx)) rest
      exact ⟨rfl, ends⟩

/-- An escaped text ends at the first quote that closes it. -/
theorem escaped_unique {a b r s : List Char} (ha : Escaped a) (hb : Escaped b)
    (same : a ++ '"' :: r = b ++ '"' :: s) : a = b ∧ r = s := by
  induction ha generalizing b with
  | nil =>
    cases hb with
    | nil => simpa using same
    | plain quote _ _ =>
      simp only [List.nil_append, List.cons_append, List.cons.injEq] at same
      exact absurd same.1.symm quote
    | escape c _ => simp at same
  | plain quote slash _ ih =>
    cases hb with
    | nil =>
      simp only [List.nil_append, List.cons_append, List.cons.injEq] at same
      exact absurd same.1 quote
    | plain _ _ tail =>
      simp only [List.cons_append, List.cons.injEq] at same
      obtain ⟨rfl, rest⟩ := ih tail same.2
      exact ⟨by rw [same.1], rest⟩
    | escape c _ =>
      simp only [List.cons_append, List.cons.injEq] at same
      exact absurd same.1 slash
  | escape c _ ih =>
    cases hb with
    | nil => simp at same
    | plain _ slash _ =>
      simp only [List.cons_append, List.cons.injEq] at same
      exact absurd same.1.symm slash
    | escape d tail =>
      simp only [List.cons_append, List.cons.injEq, true_and] at same
      obtain ⟨rfl, rest⟩ := ih tail same.2
      exact ⟨by rw [same.1], rest⟩

section Printer

variable (lit : LiteralPrinter)

/-- A printed string is read back from the front of any text. -/
theorem string_prefix {s t : String} {r q : List Char}
    (same : lit.string s ++ r = lit.string t ++ q) : s = t ∧ r = q := by
  obtain ⟨a, ha, ea⟩ := lit.string_quoted s
  obtain ⟨b, hb, eb⟩ := lit.string_quoted t
  rw [ha, hb] at same
  obtain ⟨rfl, rest⟩ := escaped_unique ea eb (by simpa using same)
  exact ⟨lit.string_injective (ha.trans hb.symm), rest⟩

/-- A printed number is read back from the front of any text that a delimiter continues. -/
theorem number_prefix {m n : Number} {r q : List Char} (hr : Delimited r) (hq : Delimited q)
    (same : lit.number m ++ r = lit.number n ++ q) : m = n ∧ r = q := by
  obtain ⟨text, rest⟩ :=
    number_text_unique (lit.number_chars m) (lit.number_chars n) hr hq same
  exact ⟨lit.number_injective text, rest⟩

end Printer

/-! A printer that has these laws, exact on integers and on strings without control characters. -/

private theorem toDigits_injective : Function.Injective (Nat.toDigits 10) := by
  intro m n same
  rw [← Nat.ofDigitChars_ten_toDigits (n := m), same, Nat.ofDigitChars_ten_toDigits]

private theorem toDigits_head {n : ℕ} {c : Char} {cs : List Char}
    (h : Nat.toDigits 10 n = c :: cs) :
    c.isDigit = true :=
  Nat.isDigit_of_mem_toDigits (by decide) (by decide) (h ▸ List.mem_cons_self)

private theorem toDigits_chars {n : ℕ} {c : Char} (h : c ∈ Nat.toDigits 10 n) :
    isNumberChar c = true := by
  simp only [isNumberChar, Nat.isDigit_of_mem_toDigits (by decide) (by decide) h, Bool.true_or]

/-- Integers in decimal, and floats by their bits behind a mark that no integer has. -/
def plainNumber : Number → List Char
  | .posInt n => Nat.toDigits 10 n.toNat
  | .negInt n _ => '-' :: Nat.toDigits 10 n.toInt.natAbs
  | .float bits _ => 'e' :: Nat.toDigits 10 bits.toNat

def escapeChar (c : Char) : List Char := if c = '"' ∨ c = '\\' then ['\\', c] else [c]

def plainString (s : String) : List Char := '"' :: (s.toList.flatMap escapeChar ++ ['"'])

theorem escaped_flatMap (cs : List Char) : Escaped (cs.flatMap escapeChar) := by
  induction cs with
  | nil => exact .nil
  | cons c cs ih =>
    rw [List.flatMap_cons, escapeChar]
    split_ifs with special
    · exact .escape c ih
    · exact .plain (fun h => special (.inl h)) (fun h => special (.inr h)) ih

theorem flatMap_escapeChar_injective :
    Function.Injective fun cs : List Char => cs.flatMap escapeChar := by
  intro a b same
  induction a generalizing b with
  | nil =>
    cases b with
    | nil => rfl
    | cons d ds =>
      simp only [List.flatMap_cons, List.flatMap_nil, escapeChar] at same
      split_ifs at same <;> simp at same
  | cons c cs ih =>
    cases b with
    | nil =>
      simp only [List.flatMap_cons, List.flatMap_nil, escapeChar] at same
      split_ifs at same <;> simp at same
    | cons d ds =>
      have both : c = d ∧ cs.flatMap escapeChar = ds.flatMap escapeChar := by
        simp only [List.flatMap_cons, escapeChar] at same
        split_ifs at same with hc hd hd
        · simpa using same
        · simp only [List.cons_append, List.nil_append, List.cons.injEq] at same
          exact absurd (.inr same.1.symm) hd
        · simp only [List.cons_append, List.nil_append, List.cons.injEq] at same
          exact absurd (.inr same.1) hc
        · simpa using same
      obtain ⟨rfl, rest⟩ := both
      rw [ih rest]

theorem plainNumber_injective : Function.Injective plainNumber := by
  intro m n same
  cases m with
  | posInt m =>
    cases n with
    | posInt n => rw [UInt64.toNat_inj.mp (toDigits_injective same)]
    | _ => exact absurd (toDigits_head same) (by decide)
  | negInt m hm =>
    cases n with
    | negInt n hn =>
      have magnitude := toDigits_injective (List.cons.inj same).2
      have lowM : m.toInt < 0 := Int64.lt_iff_toInt_lt.mp hm
      have lowN : n.toInt < 0 := Int64.lt_iff_toInt_lt.mp hn
      have value : m = n := Int64.toInt_inj.mp (by omega)
      subst value
      rfl
    | posInt n => exact absurd (toDigits_head same.symm) (by decide)
    | float n _ => exact absurd (List.cons.inj same).1 (by decide)
  | float m hm =>
    cases n with
    | float n hn =>
      have value := UInt64.toNat_inj.mp (toDigits_injective (List.cons.inj same).2)
      subst value
      rfl
    | posInt n => exact absurd (toDigits_head same.symm) (by decide)
    | negInt n _ => exact absurd (List.cons.inj same).1 (by decide)

def plainPrinter : LiteralPrinter where
  number := plainNumber
  string := plainString
  number_injective := plainNumber_injective
  number_ne_nil n := by
    cases n with
    | posInt n => exact Nat.toDigits_ne_nil
    | _ => simp [plainNumber]
  number_chars n c member := by
    cases n with
    | posInt n => exact toDigits_chars member
    | negInt n _ =>
      rcases List.mem_cons.mp member with rfl | digit
      · decide
      · exact toDigits_chars digit
    | float n _ =>
      rcases List.mem_cons.mp member with rfl | digit
      · decide
      · exact toDigits_chars digit
  string_injective s t same := by
    have bodies := List.append_cancel_right (List.cons.inj same).2
    exact String.toList_injective (flatMap_escapeChar_injective bodies)
  string_quoted s := ⟨s.toList.flatMap escapeChar, rfl, escaped_flatMap _⟩

end BusinessOs.Lib.Json.Literals
