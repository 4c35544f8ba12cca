/- digest: Association lists kept in key order, as a B-tree map iterates them. -/

import Mathlib.Data.List.Perm.Basic
import Mathlib.Order.Defs.LinearOrder
import Mathlib.Order.Lattice

set_option autoImplicit false
set_option relaxedAutoImplicit false

namespace BusinessOs.Lib.OrderedMap

universe u v

variable {κ : Type u} {α : Type v} [LinearOrder κ]

/-- Insert an entry in key order; an entry with the same key is replaced. -/
def insert (k : κ) (v : α) : List (κ × α) → List (κ × α)
  | [] => [(k, v)]
  | (l, w) :: ms =>
    if k < l then (k, v) :: (l, w) :: ms
    else if k = l then (k, v) :: ms
    else (l, w) :: insert k v ms

/-- Collect entries into a map, a later entry replacing an earlier one with its key. -/
def ofList (ms : List (κ × α)) : List (κ × α) :=
  ms.foldl (fun m e => insert e.1 e.2 m) []

/-- Strictly ascending keys. -/
def Sorted (ms : List (κ × α)) : Prop := ms.Pairwise fun a b => a.1 < b.1

variable {k : κ} {v : α} {ms ns : List (κ × α)}

theorem mem_insert {e : κ × α} (h : e ∈ insert k v ms) : e = (k, v) ∨ e ∈ ms := by
  induction ms with
  | nil => simpa [insert] using h
  | cons m ms ih =>
    unfold insert at h
    split_ifs at h
    · exact List.mem_cons.mp h
    · rcases List.mem_cons.mp h with rfl | later
      · exact .inl rfl
      · exact .inr (List.mem_cons_of_mem _ later)
    · rcases List.mem_cons.mp h with rfl | later
      · exact .inr List.mem_cons_self
      · exact (ih later).imp_right (List.mem_cons_of_mem _)

theorem insert_sorted (h : Sorted ms) : Sorted (insert k v ms) := by
  induction ms with
  | nil => exact List.pairwise_singleton _ _
  | cons m ms ih =>
    obtain ⟨head, tail⟩ := List.pairwise_cons.mp h
    unfold insert
    split_ifs with less same
    · refine List.pairwise_cons.mpr ⟨fun e member => ?_, h⟩
      rcases List.mem_cons.mp member with rfl | later
      · exact less
      · exact less.trans (head e later)
    · exact List.pairwise_cons.mpr ⟨fun e member => same ▸ head e member, tail⟩
    · refine List.pairwise_cons.mpr ⟨fun e member => ?_, ih tail⟩
      rcases mem_insert member with rfl | old
      · exact lt_of_le_of_ne (not_lt.mp less) (Ne.symm same)
      · exact head e old

/-- What is found after an insertion is the new entry under its key, and the old one elsewhere. -/
theorem find?_insert [BEq κ] [LawfulBEq κ] (l : κ) :
    (insert k v ms).find? (fun m => m.1 == l) =
      if k = l then some (k, v) else ms.find? fun m => m.1 == l := by
  by_cases own : k = l
  · subst own
    rw [if_pos rfl]
    induction ms with
    | nil => simp [insert]
    | cons m ms ih =>
      unfold insert
      split_ifs with less same
      · simp
      · simp
      · have other : m.1 ≠ k := fun found => same found.symm
        simp [other, ih]
  · rw [if_neg own]
    induction ms with
    | nil => simp [insert, own]
    | cons m ms ih =>
      unfold insert
      split_ifs with less same
      · simp [own]
      · have other : m.1 ≠ l := fun found => own (same.trans found)
        simp [own, other]
      · rw [List.find?_cons, List.find?_cons, ih]

/-- Inserting a new key only adds the entry. -/
theorem insert_perm (fresh : k ∉ ms.map Prod.fst) : (insert k v ms).Perm ((k, v) :: ms) := by
  induction ms with
  | nil => exact .refl _
  | cons m ms ih =>
    simp only [List.map_cons, List.mem_cons, not_or] at fresh
    unfold insert
    split_ifs with less same
    · exact .refl _
    · exact absurd same fresh.1
    · exact ((ih fresh.2).cons m).trans (.swap _ _ _)

private theorem foldl_perm (fresh : (ns.map Prod.fst ++ ms.map Prod.fst).Nodup) :
    (ms.foldl (fun m e => insert e.1 e.2 m) ns).Perm (ns ++ ms) := by
  induction ms generalizing ns with
  | nil => simp
  | cons m ms ih =>
    have new : m.1 ∉ ns.map Prod.fst := fun member =>
      (List.nodup_append.mp fresh).2.2 _ member _ List.mem_cons_self rfl
    have step : (insert m.1 m.2 ns).Perm (m :: ns) := insert_perm new
    have keys : ((insert m.1 m.2 ns).map Prod.fst ++ ms.map Prod.fst).Perm
        (ns.map Prod.fst ++ (m :: ms).map Prod.fst) := by
      refine ((step.map Prod.fst).append_right _).trans ?_
      rw [List.map_cons, List.map_cons, List.cons_append]
      exact List.perm_middle.symm
    refine (ih (keys.nodup_iff.mpr fresh)).trans ((step.append_right ms).trans ?_)
    rw [List.cons_append]
    exact List.perm_middle.symm

private theorem foldl_sorted (h : Sorted ns) :
    Sorted (ms.foldl (fun m e => insert e.1 e.2 m) ns) := by
  induction ms generalizing ns with
  | nil => exact h
  | cons m ms ih => exact ih (insert_sorted h)

theorem ofList_sorted : Sorted (ofList ms) := foldl_sorted .nil

/-- Collecting entries with distinct keys only reorders them. -/
theorem ofList_perm (distinct : (ms.map Prod.fst).Nodup) : (ofList ms).Perm ms :=
  foldl_perm (by simpa using distinct)

theorem Sorted.nodup (h : Sorted ms) : (ms.map Prod.fst).Nodup :=
  List.pairwise_map.mpr (h.imp ne_of_lt)

/-- Sorted lists with the same entries are equal. -/
theorem Sorted.eq_of_perm (hm : Sorted ms) (hn : Sorted ns) (perm : ms.Perm ns) : ms = ns :=
  List.Perm.eq_of_pairwise (fun _ _ _ _ less more => absurd (less.trans more) (lt_irrefl _))
    hm hn perm

/-- A sorted list is its own collection. -/
theorem ofList_of_sorted (h : Sorted ms) : ofList ms = ms :=
  ofList_sorted.eq_of_perm h (ofList_perm h.nodup)

/-- Collections of entries with distinct keys are equal exactly when the entries are the same up
to order. -/
theorem ofList_eq_iff (hm : (ms.map Prod.fst).Nodup) (hn : (ns.map Prod.fst).Nodup) :
    ofList ms = ofList ns ↔ ms.Perm ns := by
  constructor
  · intro same
    exact (ofList_perm hm).symm.trans (same ▸ ofList_perm hn)
  · intro perm
    refine ofList_sorted.eq_of_perm ofList_sorted ?_
    exact (ofList_perm hm).trans (perm.trans (ofList_perm hn).symm)

end BusinessOs.Lib.OrderedMap
