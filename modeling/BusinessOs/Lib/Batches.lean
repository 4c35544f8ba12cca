/- digest: The first few of a list by a time, and how many of a kind a full batch leaves. -/

import Mathlib.Data.List.Sort
import Mathlib.Order.Lattice

set_option autoImplicit false
set_option relaxedAutoImplicit false

namespace BusinessOs.Lib.Batches

universe u v w

variable {α : Type u} {τ : Type v} [LinearOrder τ] (time : α → τ) (n : ℕ)

/-- The `n` earliest elements; of those with one time the earlier in the list come first. -/
def batch (xs : List α) : List α := (xs.insertionSort fun a b => time a ≤ time b).take n

variable {time n} {xs : List α} {a b : α}

theorem mem_of_mem_batch (member : a ∈ batch time n xs) : a ∈ xs := by
  have sorted := List.mem_of_mem_take member
  rwa [List.mem_insertionSort] at sorted

theorem batch_nodup_map {κ : Type w} {key : α → κ} (distinct : (xs.map key).Nodup) :
    ((batch time n xs).map key).Nodup := by
  have sorted := ((List.perm_insertionSort (fun a b => time a ≤ time b) xs).map key).nodup_iff.mpr
    distinct
  exact sorted.sublist ((List.take_sublist _ _).map _)

/-- Whoever misses the batch misses a full one, of elements that are not later. -/
theorem full_of_missed (member : a ∈ xs) (missed : a ∉ batch time n xs) :
    (batch time n xs).length = n ∧ ∀ b ∈ batch time n xs, time b ≤ time a := by
  have total : Std.Total fun a b : α => time a ≤ time b := ⟨fun _ _ => le_total _ _⟩
  have trans : IsTrans α fun a b : α => time a ≤ time b := ⟨fun _ _ _ => le_trans⟩
  have sorted := List.pairwise_insertionSort (fun a b : α => time a ≤ time b) xs
  have inside : a ∈ xs.insertionSort fun a b => time a ≤ time b :=
    (List.mem_insertionSort _).mpr member
  unfold batch at missed ⊢
  generalize xs.insertionSort (fun a b => time a ≤ time b) = all at missed sorted inside ⊢
  have behind : a ∈ all.drop n := by
    rw [← List.take_append_drop n all] at inside
    exact (List.mem_append.mp inside).resolve_left missed
  constructor
  · have more := List.length_pos_of_mem behind
    rw [List.length_drop] at more
    rw [List.length_take]
    omega
  · intro b first
    rw [← List.take_append_drop n all] at sorted
    exact (List.pairwise_append.mp sorted).2.2 b first a behind

/-- Of the elements of a kind a batch of that kind leaves so many fewer. -/
theorem countP_add_length_le {kind left : α → Bool} {taken : List α}
    (distinct : taken.Nodup) (inside : ∀ a ∈ taken, a ∈ xs ∧ kind a = true ∧ left a = false)
    (fewer : ∀ a ∈ xs, left a = true → kind a = true) :
    xs.countP left + taken.length ≤ xs.countP kind := by
  have out : taken.length ≤ ((xs.filter kind).filter fun a => !left a).length := by
    apply (List.subperm_of_subset distinct _).length_le
    intro a member
    obtain ⟨listed, own, gone⟩ := inside a member
    rw [List.mem_filter, List.mem_filter, gone]
    exact ⟨⟨listed, own⟩, rfl⟩
  have stay : xs.countP left ≤ (xs.filter kind).countP left := by
    rw [List.countP_filter]
    apply List.countP_mono_left
    intro a listed kept
    rw [kept, fewer a listed kept]
    rfl
  have parts := List.length_eq_countP_add_countP left (l := xs.filter kind)
  rw [← List.countP_eq_length_filter] at parts out
  simp only [Bool.not_eq_true, Bool.decide_eq_false] at parts
  omega

end BusinessOs.Lib.Batches
