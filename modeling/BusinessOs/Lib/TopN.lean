/- digest: The best few of a list by a score that counts matches, as a stable sort ranks them, and
     what is lost when only the front of the list is ranked. -/

import Mathlib.Data.List.Sort

set_option autoImplicit false
set_option relaxedAutoImplicit false

namespace BusinessOs.Lib.TopN

universe u

variable {α : Type u} (score : α → ℕ)

/-- The elements with a score, best first; equal ones keep their order. -/
def ranked (xs : List α) : List α :=
  (xs.filter fun a => decide (0 < score a)).insertionSort fun a b => score b ≤ score a

/-- The first `n` of them. -/
def top (n : ℕ) (xs : List α) : List α := (ranked score xs).take n

/-- As many as there are, up to `n`, ordered by their score, and none better is left out. -/
structure Best (n : ℕ) (all result : List α) : Prop where
  length : result.length = min n (all.countP fun a => decide (0 < score a))
  distinct : result.Nodup
  mem : ∀ a ∈ result, a ∈ all ∧ 0 < score a
  sorted : result.Pairwise fun a b => score b ≤ score a
  best : ∀ a ∈ all, a ∉ result → ∀ b ∈ result, score a ≤ score b

section Ranked

variable {score} {xs : List α} {n : ℕ}

theorem ranked_perm (xs : List α) :
    (ranked score xs).Perm (xs.filter fun a => decide (0 < score a)) :=
  List.perm_insertionSort _ _

theorem ranked_sorted (xs : List α) :
    (ranked score xs).Pairwise fun a b => score b ≤ score a := by
  have : Std.Total fun a b : α => score b ≤ score a := ⟨fun _ _ => Nat.le_total _ _⟩
  have : IsTrans α fun a b : α => score b ≤ score a := ⟨fun _ _ _ ba cb => Nat.le_trans cb ba⟩
  exact List.pairwise_insertionSort _ _

theorem mem_ranked {a : α} : a ∈ ranked score xs ↔ a ∈ xs ∧ 0 < score a := by
  rw [(ranked_perm xs).mem_iff, List.mem_filter, decide_eq_true_iff]

theorem length_top (xs : List α) :
    (top score n xs).length = min n (xs.countP fun a => decide (0 < score a)) := by
  rw [top, List.length_take, (ranked_perm xs).length_eq, List.countP_eq_length_filter]

theorem top_eq_nil (unmatched : ∀ a ∈ xs, score a = 0) : top score n xs = [] := by
  have empty : ranked score xs = [] := by
    apply List.eq_nil_iff_forall_not_mem.mpr
    intro a member
    obtain ⟨inside, matched⟩ := mem_ranked.mp member
    rw [unmatched a inside] at matched
    exact Nat.lt_irrefl 0 matched
  rw [top, empty, List.take_nil]

/-- Of a ranked list the first `n` reach a bound that `n` of it reach. -/
theorem le_of_mem_take {c : ℕ} (sorted : xs.Pairwise fun a b => score b ≤ score a)
    (many : n ≤ xs.countP fun a => decide (c ≤ score a)) : ∀ a ∈ xs.take n, c ≤ score a := by
  induction xs generalizing n with
  | nil => simp
  | cons x xs ih =>
    obtain ⟨below, rest⟩ := List.pairwise_cons.mp sorted
    intro a member
    cases n with
    | zero => simp at member
    | succ n =>
      by_cases reaches : c ≤ score x
      · have here : decide (c ≤ score x) = true := decide_eq_true reaches
        rw [List.countP_cons, if_pos here] at many
        rcases List.mem_cons.mp member with rfl | later
        · exact reaches
        · exact ih rest (Nat.le_of_succ_le_succ many) a later
      · -- nothing behind an element below the bound reaches it
        have none_ : (x :: xs).countP (fun a => decide (c ≤ score a)) = 0 := by
          rw [List.countP_eq_zero]
          intro b inside
          have under : score b ≤ score x := by
            rcases List.mem_cons.mp inside with rfl | behind
            · exact le_rfl
            · exact below b behind
          simp only [decide_eq_true_eq]
          omega
        omega

/-- For a positive bound the ranking counts as the list does. -/
theorem countP_ranked {c : ℕ} (positive : 0 < c) (xs : List α) :
    (ranked score xs).countP (fun a => decide (c ≤ score a)) =
      xs.countP fun a => decide (c ≤ score a) := by
  rw [(ranked_perm xs).countP_eq, List.countP_filter]
  apply List.countP_congr
  intro a _
  simp only [Bool.and_eq_true, decide_eq_true_eq]
  omega

/-- What is ranked behind the first `n` is no better. -/
theorem top_best {a b : α} (member : a ∈ xs) (out : a ∉ top score n xs)
    (inside : b ∈ top score n xs) : score a ≤ score b := by
  by_cases matched : 0 < score a
  · have split : a ∈ (ranked score xs).take n ++ (ranked score xs).drop n := by
      rw [List.take_append_drop]
      exact mem_ranked.mpr ⟨member, matched⟩
    have behind : a ∈ (ranked score xs).drop n := (List.mem_append.mp split).resolve_left out
    have sorted : (ranked score xs).Pairwise fun a b => score b ≤ score a := ranked_sorted xs
    rw [← List.take_append_drop n (ranked score xs)] at sorted
    exact (List.pairwise_append.mp sorted).2.2 b inside a behind
  · omega

end Ranked

section Front

variable {score} {front rest : List α} {n : ℕ}

theorem mem_of_mem_top {a : α} (member : a ∈ top score n front) : a ∈ front ∧ 0 < score a :=
  mem_ranked.mp (List.mem_of_mem_take member)

/-- What is cut off before the ranking is missed unless `n` elements of the front are as good. -/
theorem covered_of_best (distinct : (front ++ rest).Nodup)
    (best : Best score n (front ++ rest) (top score n front)) {a : α} (member : a ∈ rest)
    (matched : 0 < score a) : n ≤ front.countP fun b => decide (score a ≤ score b) := by
  have more : 0 < rest.countP fun b => decide (0 < score b) :=
    List.countP_pos_iff.mpr ⟨a, member, decide_eq_true matched⟩
  have length := best.length
  rw [length_top, List.countP_append] at length
  have full : (top score n front).length = n := by
    rw [length_top]
    omega
  have out : a ∉ top score n front := by
    intro inside
    exact (List.disjoint_of_nodup_append distinct) (mem_of_mem_top inside).1 member
  have reach : (top score n front).countP (fun b => decide (score a ≤ score b)) = n := by
    rw [List.countP_eq_length.mpr, full]
    intro b inside
    exact decide_eq_true (best.best a (List.mem_append_right _ member) out b inside)
  calc n = (top score n front).countP fun b => decide (score a ≤ score b) := reach.symm
    _ ≤ (ranked score front).countP fun b => decide (score a ≤ score b) :=
      (List.take_sublist n _).countP_le
    _ = front.countP fun b => decide (score a ≤ score b) := countP_ranked matched front

theorem best_of_covered (distinct : front.Nodup)
    (covered : ∀ a ∈ rest, 0 < score a → n ≤ front.countP fun b => decide (score a ≤ score b)) :
    Best score n (front ++ rest) (top score n front) := by
  refine ⟨?_, ?_, ?_, ?_, ?_⟩
  · rw [length_top, List.countP_append]
    by_cases matched : ∃ a ∈ rest, 0 < score a
    · obtain ⟨a, member, positive⟩ := matched
      have enough := covered a member positive
      have weaker : front.countP (fun b => decide (score a ≤ score b)) ≤
          front.countP fun b => decide (0 < score b) := by
        apply List.countP_mono_left
        intro b _ reaches
        have reached := of_decide_eq_true reaches
        exact decide_eq_true (by omega)
      omega
    · have none_ : rest.countP (fun b => decide (0 < score b)) = 0 := by
        rw [List.countP_eq_zero]
        intro a member positive
        exact matched ⟨a, member, of_decide_eq_true positive⟩
      rw [none_, Nat.add_zero]
  · have whole : (ranked score front).Nodup :=
      (ranked_perm front).nodup_iff.mpr (distinct.filter _)
    exact whole.sublist (List.take_sublist n _)
  · intro a member
    obtain ⟨inside, positive⟩ := mem_of_mem_top member
    exact ⟨List.mem_append_left _ inside, positive⟩
  · exact (ranked_sorted front).sublist (List.take_sublist n _)
  · intro a member out b inside
    rcases List.mem_append.mp member with fetched | cut
    · exact top_best fetched out inside
    · by_cases positive : 0 < score a
      · have enough := covered a cut positive
        rw [← countP_ranked positive] at enough
        exact le_of_mem_take (ranked_sorted front) enough b inside
      · omega

/-- The first `n` of the ranked front are the best of the whole exactly when each match behind the
front is matched by `n` elements of the front that are as good. -/
theorem best_top_iff (distinct : (front ++ rest).Nodup) :
    Best score n (front ++ rest) (top score n front) ↔
      ∀ a ∈ rest, 0 < score a → n ≤ front.countP fun b => decide (score a ≤ score b) := by
  constructor
  · intro best a member matched
    exact covered_of_best distinct best member matched
  · exact best_of_covered (List.nodup_append.mp distinct).1

end Front

end BusinessOs.Lib.TopN
