/- digest: A table of rows with a key: look a row up, change the rows with a key, add a row. -/

import Mathlib.Algebra.GroupWithZero.Nat
import Mathlib.Data.List.Nodup

set_option autoImplicit false
set_option relaxedAutoImplicit false

namespace BusinessOs.Lib.Table

universe u v

variable {ρ : Type u} {κ : Type v} [DecidableEq κ] (key : ρ → κ)

/-- The first row with a key. -/
def get (rows : List ρ) (k : κ) : Option ρ := rows.find? fun r => decide (key r = k)

/-- Change every row with a key. -/
def update (rows : List ρ) (k : κ) (f : ρ → ρ) : List ρ :=
  rows.map fun r => if key r = k then f r else r

variable {key} {rows : List ρ} {r : ρ} {k l : κ} {f : ρ → ρ}

theorem get_cons : get key (r :: rows) k = if key r = k then some r else get key rows k := by
  by_cases same : key r = k <;> simp [get, same]

theorem update_cons :
    update key (r :: rows) k f = (if key r = k then f r else r) :: update key rows k f := rfl

theorem get_mem (found : get key rows k = some r) : r ∈ rows ∧ key r = k := by
  refine ⟨List.mem_of_find?_eq_some found, ?_⟩
  simpa using List.find?_some found

/-- With distinct keys every row is the one that its key finds. -/
theorem get_of_mem (distinct : (rows.map key).Nodup) (member : r ∈ rows) :
    get key rows (key r) = some r := by
  cases found : get key rows (key r) with
  | none =>
    have miss := List.find?_eq_none.mp found r member
    simp at miss
  | some s =>
    obtain ⟨inside, same⟩ := get_mem found
    rw [List.inj_on_of_nodup_map distinct inside member same]

theorem get_eq_none : get key rows k = none ↔ k ∉ rows.map key := by
  simp [get]

omit [DecidableEq κ] in
/-- A row with a new key leaves the keys distinct. -/
theorem nodup_append (distinct : (rows.map key).Nodup) (new : key r ∉ rows.map key) :
    ((rows ++ [r]).map key).Nodup := by
  rw [List.map_append]
  refine distinct.append (List.nodup_singleton _) ?_
  intro k member last
  obtain rfl := List.mem_singleton.mp last
  exact new member

/-- With distinct keys, what only the rows with one key satisfy is satisfied once. -/
theorem countP_eq_one {p : ρ → Bool} (distinct : (rows.map key).Nodup) (member : r ∈ rows)
    (own : p r = true) (same : ∀ other ∈ rows, p other = true → key other = key r) :
    rows.countP p = 1 := by
  have keyed : rows.countP p = (rows.map key).count (key r) := by
    rw [List.count, List.countP_map]
    apply List.countP_congr
    intro other inside
    rw [Function.comp_apply, beq_iff_eq]
    refine ⟨same other inside, fun equal => ?_⟩
    rwa [List.inj_on_of_nodup_map distinct inside member equal]
  rw [keyed]
  exact List.count_eq_one_of_mem distinct (List.mem_map_of_mem member)

theorem get_append (s : ρ) :
    get key (rows ++ [s]) k = (get key rows k).or (if key s = k then some s else none) := by
  unfold get
  rw [List.find?_append]
  by_cases same : key s = k <;> simp [same]

/-- A column that a change leaves alone stays. -/
theorem map_update {α : Type*} (g : ρ → α) (same : ∀ r, g (f r) = g r) :
    (update key rows k f).map g = rows.map g := by
  unfold update
  rw [List.map_map]
  apply List.map_congr_left
  intro r _
  by_cases own : key r = k <;> simp [own, same]

/-- A search that the change does not touch finds the same row, changed. -/
theorem find?_update {p : ρ → Bool} (same : ∀ r, p (f r) = p r) :
    (update key rows k f).find? p =
      (rows.find? p).map fun r => if key r = k then f r else r := by
  have untouched : (p ∘ fun r => if key r = k then f r else r) = p := by
    funext r
    by_cases own : key r = k <;> simp [own, same]
  rw [update, List.find?_map, untouched]

/-- The rows of a kind that the change does not touch are the same rows, changed. -/
theorem filter_update {p : ρ → Bool} (same : ∀ r, p (f r) = p r) :
    (update key rows k f).filter p =
      (rows.filter p).map fun r => if key r = k then f r else r := by
  have untouched : (p ∘ fun r => if key r = k then f r else r) = p := by
    funext r
    by_cases own : key r = k <;> simp [own, same]
  rw [update, List.filter_map, untouched]

section Update

variable (keeps : ∀ r, key (f r) = key r)

include keeps in
theorem keys_update : (update key rows k f).map key = rows.map key := map_update key keeps

include keeps in
theorem get_update_self : get key (update key rows k f) k = (get key rows k).map f := by
  induction rows with
  | nil => rfl
  | cons r rows ih =>
    rw [update_cons, get_cons, get_cons, ih]
    by_cases same : key r = k
    · simp [same, keeps]
    · simp [same]

include keeps in
theorem get_update_of_ne (other : l ≠ k) :
    get key (update key rows k f) l = get key rows l := by
  induction rows with
  | nil => rfl
  | cons r rows ih =>
    rw [update_cons, get_cons, get_cons, ih]
    by_cases same : key r = k
    · have miss : k ≠ l := fun h => other h.symm
      simp [same, keeps, miss]
    · rw [if_neg same]

end Update

/-- Two changes of the same rows are one. -/
theorem update_update {g : ρ → ρ} (keeps : ∀ r, key (f r) = key r) :
    update key (update key rows k f) k g = update key rows k fun r => g (f r) := by
  unfold update
  rw [List.map_map]
  apply List.map_congr_left
  intro r _
  by_cases same : key r = k <;> simp [same, keeps]

theorem update_of_forall (same : ∀ r ∈ rows, key r = k → f r = r) :
    update key rows k f = rows := by
  unfold update
  rw [List.map_congr_left (g := id), List.map_id]
  intro r member
  by_cases own : key r = k
  · simp [own, same r member own]
  · simp [own]

/-- A change of the only row with its key moves a sum by the change of that row's weight. -/
theorem sum_update (weight : ρ → ℕ) (distinct : (rows.map key).Nodup)
    (found : get key rows k = some r) :
    ((update key rows k f).map weight).sum + weight r =
      (rows.map weight).sum + weight (f r) := by
  induction rows with
  | nil => cases found
  | cons s rows ih =>
    rw [List.map_cons, List.nodup_cons] at distinct
    obtain ⟨new, distinct⟩ := distinct
    rw [get_cons] at found
    rw [update_cons]
    by_cases same : key s = k
    · rw [if_pos same] at found
      obtain rfl : s = r := Option.some.inj found
      have rest : update key rows k f = rows := by
        apply update_of_forall
        intro t member own
        exact absurd (List.mem_map.mpr ⟨t, member, own.trans same.symm⟩) new
      simp only [same, if_true, rest, List.map_cons, List.sum_cons]
      omega
    · rw [if_neg same] at found
      have tail := ih distinct found
      simp only [same, if_false, List.map_cons, List.sum_cons]
      omega

theorem mem_update (member : r ∈ update key rows k f) :
    (r ∈ rows ∧ key r ≠ k) ∨ ∃ s ∈ rows, key s = k ∧ r = f s := by
  obtain ⟨s, inside, rfl⟩ := List.mem_map.mp member
  by_cases same : key s = k
  · exact .inr ⟨s, inside, same, by simp [same]⟩
  · left
    simp only [same, if_false]
    exact ⟨inside, fun h => same h⟩

end BusinessOs.Lib.Table
