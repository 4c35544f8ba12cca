/- digest: The maximal runs of a predicate in a list, and lists of parts with one separator between
     any two of them. -/

import Mathlib.Data.List.DropRight
import Mathlib.Data.List.Chain
import Mathlib.Data.List.Flatten
import Mathlib.Data.List.TakeWhile

set_option autoImplicit false
set_option relaxedAutoImplicit false

namespace BusinessOs.Lib.Runs

universe u

variable {α : Type u}

/-- The longest stretches of elements that satisfy `p`, in order. -/
def runs (p : α → Bool) : List α → List (List α)
  | [] => []
  | a :: rest =>
    if p a then (a :: rest.takeWhile p) :: runs p (rest.dropWhile p) else runs p rest
  termination_by text => text.length
  decreasing_by
    · exact Nat.lt_succ_of_le (List.dropWhile_suffix p).length_le
    · exact Nat.lt_succ_self _

/-- A stretch that some separator may not cut. -/
def Part (p : α → Bool) (part : List α) : Prop := part ≠ [] ∧ ∀ a ∈ part, p a = true

theorem runs_part (p : α → Bool) (text : List α) : ∀ part ∈ runs p text, Part p part := by
  fun_induction runs p text with
  | case1 => simp
  | case2 a rest keep ih =>
    intro part member
    rcases List.mem_cons.mp member with rfl | later
    · refine ⟨List.cons_ne_nil _ _, fun b inside => ?_⟩
      rcases List.mem_cons.mp inside with rfl | taken
      · exact keep
      · exact List.mem_takeWhile_imp taken
    · exact ih part later
  | case3 a rest skip ih => exact ih

/-! What stands between the runs does not matter. -/

section Gaps

variable {p : α → Bool} {l m first second : List α} {sep : α}

theorem runs_cons_pos {a : α} (keep : p a = true) (rest : List α) :
    runs p (a :: rest) = (a :: rest.takeWhile p) :: runs p (rest.dropWhile p) := by
  rw [runs, if_pos keep]

theorem runs_cons_neg {a : α} (skip : p a = false) (rest : List α) :
    runs p (a :: rest) = runs p rest := by
  rw [runs, if_neg (Bool.eq_false_iff.mp skip)]

theorem runs_append_gap {gap : List α} (all : ∀ a ∈ gap, p a = false) (rest : List α) :
    runs p (gap ++ rest) = runs p rest := by
  induction gap with
  | nil => rfl
  | cons a gap ih =>
    obtain ⟨skip, others⟩ := List.forall_mem_cons.mp all
    rw [List.cons_append, runs_cons_neg skip, ih others]

/-- A separator ends a run. -/
theorem takeWhile_append_sep (cut : p sep = false) (first second : List α) :
    (first ++ sep :: second).takeWhile p = first.takeWhile p := by
  induction first with
  | nil => simp [cut]
  | cons a first ih => cases keep : p a <;> simp [keep, ih]

theorem dropWhile_append_sep (cut : p sep = false) (first second : List α) :
    (first ++ sep :: second).dropWhile p = first.dropWhile p ++ sep :: second := by
  induction first with
  | nil => simp [cut]
  | cons a first ih => cases keep : p a <;> simp [keep, ih]

theorem runs_append_sep (cut : p sep = false) (first second : List α) :
    runs p (first ++ sep :: second) = runs p first ++ runs p second := by
  fun_induction runs p first with
  | case1 => exact runs_cons_neg cut second
  | case2 a rest keep ih =>
    rw [List.cons_append, runs_cons_pos keep, takeWhile_append_sep cut,
      dropWhile_append_sep cut, ih, List.cons_append]
  | case3 a rest skip ih =>
    rw [List.cons_append, runs_cons_neg (Bool.eq_false_iff.mpr skip), ih]

/-- The runs of joined texts are those of each. -/
theorem runs_intercalate (cut : p sep = false) (texts : List (List α)) :
    runs p (List.intercalate [sep] texts) = texts.flatMap (runs p) := by
  induction texts with
  | nil => simp [runs]
  | cons text rest ih =>
    rw [List.flatMap_cons, ← ih]
    by_cases last : rest = []
    · subst last
      simp [runs]
    · rw [List.intercalate_cons_of_ne_nil last, List.append_assoc, List.singleton_append,
        runs_append_sep cut]

/-- No run stands where nothing satisfies the predicate. -/
theorem runs_eq_nil_iff {text : List α} : runs p text = [] ↔ ∀ a ∈ text, p a = false := by
  fun_induction runs p text with
  | case1 => simp
  | case2 a rest keep ih => simp [keep]
  | case3 a rest skip ih => simp [ih, skip]

theorem length_run_le {text : List α} : ∀ part ∈ runs p text, part.length ≤ text.length := by
  fun_induction runs p text with
  | case1 => simp
  | case2 a rest keep ih =>
    intro part member
    rcases List.mem_cons.mp member with rfl | later
    · exact Nat.succ_le_succ (List.takeWhile_prefix p).length_le
    · have inside := ih part later
      have shorter := (List.dropWhile_suffix p : rest.dropWhile p <:+ rest).length_le
      rw [List.length_cons]
      omega
  | case3 a rest skip ih =>
    intro part member
    exact (ih part member).trans (Nat.le_succ _)

/-- Two texts that differ only in what fills the gaps between their runs. -/
inductive Alike (p : α → Bool) : List α → List α → Prop
  | nil : Alike p [] []
  | cons (a : α) {l m : List α} (rest : Alike p l m) : Alike p (a :: l) (a :: m)
  | gap {g h l m : List α} (left : g ≠ []) (right : h ≠ []) (skipLeft : ∀ a ∈ g, p a = false)
      (skipRight : ∀ a ∈ h, p a = false) (rest : Alike p l m) : Alike p (g ++ l) (h ++ m)

theorem Alike.refl (l : List α) : Alike p l l := by
  induction l with
  | nil => exact .nil
  | cons a l ih => exact .cons a ih

theorem Alike.append (start : Alike p l m) (rest : Alike p first second) :
    Alike p (l ++ first) (m ++ second) := by
  induction start with
  | nil => exact rest
  | cons a _ ih => exact .cons a ih
  | gap left right skipLeft skipRight _ ih =>
    rw [List.append_assoc, List.append_assoc]
    exact .gap left right skipLeft skipRight ih

/-- One gap for another. -/
theorem Alike.of_gap (left : l ≠ []) (right : m ≠ []) (skipLeft : ∀ a ∈ l, p a = false)
    (skipRight : ∀ a ∈ m, p a = false) : Alike p l m := by
  have whole := Alike.gap left right skipLeft skipRight Alike.nil
  rwa [List.append_nil, List.append_nil] at whole

theorem takeWhile_gap {gap : List α} (some_ : gap ≠ []) (all : ∀ a ∈ gap, p a = false)
    (rest : List α) :
    (gap ++ rest).takeWhile p = [] ∧ (gap ++ rest).dropWhile p = gap ++ rest := by
  obtain ⟨a, tail, rfl⟩ := List.exists_cons_of_ne_nil some_
  have skip := all a List.mem_cons_self
  simp [skip]

/-- Such texts have the same runs: the run at their head is the same, and so are those behind it. -/
theorem Alike.heads (alike : Alike p l m) :
    l.takeWhile p = m.takeWhile p ∧ runs p (l.dropWhile p) = runs p (m.dropWhile p) ∧
      runs p l = runs p m := by
  induction alike with
  | nil => exact ⟨rfl, rfl, rfl⟩
  | @cons a l m _ ih =>
    obtain ⟨taken, dropped, whole⟩ := ih
    cases keep : p a with
    | true =>
      rw [runs_cons_pos keep, runs_cons_pos keep, List.takeWhile_cons_of_pos keep,
        List.takeWhile_cons_of_pos keep, List.dropWhile_cons_of_pos keep,
        List.dropWhile_cons_of_pos keep, taken, dropped]
      exact ⟨rfl, rfl, rfl⟩
    | false =>
      have skip : ¬ p a = true := Bool.eq_false_iff.mp keep
      rw [List.takeWhile_cons_of_neg skip, List.takeWhile_cons_of_neg skip,
        List.dropWhile_cons_of_neg skip, List.dropWhile_cons_of_neg skip, runs_cons_neg keep,
        runs_cons_neg keep]
      exact ⟨rfl, whole, whole⟩
  | @gap g h l m left right skipLeft skipRight _ ih =>
    obtain ⟨_, _, whole⟩ := ih
    have runsLeft := runs_append_gap skipLeft l
    have runsRight := runs_append_gap skipRight m
    rw [(takeWhile_gap left skipLeft l).1, (takeWhile_gap left skipLeft l).2,
      (takeWhile_gap right skipRight m).1, (takeWhile_gap right skipRight m).2, runsLeft,
      runsRight]
    exact ⟨rfl, whole, whole⟩

theorem Alike.runs_eq (alike : Alike p l m) : runs p l = runs p m := alike.heads.2.2

end Gaps

theorem rdropWhile_append (p : α → Bool) (first second : List α) :
    (first ++ second).rdropWhile p =
      if second.rdropWhile p = [] then first.rdropWhile p else first ++ second.rdropWhile p := by
  unfold List.rdropWhile
  rw [List.reverse_append, List.dropWhile_append]
  cases second.reverse.dropWhile p <;> simp

/-! Parts with one separator between any two of them. -/

/-- What goes through a separator goes through joined parts. -/
theorem map_intercalate {β : Type*} {f : List α → List β} {sep : α} {joint : β} (empty : f [] = [])
    (through : ∀ first second, f (first ++ sep :: second) = f first ++ joint :: f second)
    (parts : List (List α)) :
    f (List.intercalate [sep] parts) = List.intercalate [joint] (parts.map f) := by
  induction parts with
  | nil => exact empty
  | cons part rest ih =>
    by_cases last : rest = []
    · subst last
      simp
    · have more : rest.map f ≠ [] := by simpa using last
      rw [List.map_cons, List.intercalate_cons_of_ne_nil last,
        List.intercalate_cons_of_ne_nil more, List.append_assoc, List.singleton_append, through, ih,
        List.append_assoc, List.singleton_append]

section Joined

variable {p : α → Bool} {sep : α} {part : List α} {parts : List (List α)}

theorem Part.ne_sep (made : Part p part) (cut : p sep = false) {a : α} (member : a ∈ part) :
    a ≠ sep := by
  rintro rfl
  rw [made.2 a member] at cut
  exact nomatch cut

theorem runs_of_part (made : Part p part) : runs p part = [part] := by
  obtain ⟨a, rest, rfl⟩ := List.exists_cons_of_ne_nil made.1
  obtain ⟨keep, others⟩ := List.forall_mem_cons.mp made.2
  rw [runs_cons_pos keep, List.takeWhile_eq_self_iff.mpr others,
    List.dropWhile_eq_nil_iff.mpr others, runs]

/-- The runs of joined parts are the parts. -/
theorem runs_joined_parts (made : ∀ part ∈ parts, Part p part) (cut : p sep = false) :
    runs p (List.intercalate [sep] parts) = parts := by
  rw [runs_intercalate cut]
  induction parts with
  | nil => rfl
  | cons part rest ih =>
    obtain ⟨own, others⟩ := List.forall_mem_cons.mp made
    rw [List.flatMap_cons, runs_of_part own, ih others, List.singleton_append]

theorem intercalate_ne_nil (made : ∀ part ∈ parts, Part p part) (some_ : parts ≠ []) :
    List.intercalate [sep] parts ≠ [] := by
  obtain ⟨part, rest, rfl⟩ := List.exists_cons_of_ne_nil some_
  have nonempty := (made part List.mem_cons_self).1
  by_cases last : rest = []
  · rw [last, List.intercalate_singleton]
    exact nonempty
  · rw [List.intercalate_cons_of_ne_nil last]
    simp [nonempty]

/-- Every element of joined parts is the separator or from a part. -/
theorem mem_intercalate (made : ∀ part ∈ parts, Part p part) :
    ∀ a ∈ List.intercalate [sep] parts, p a = true ∨ a = sep := by
  induction parts with
  | nil => simp
  | cons part rest ih =>
    obtain ⟨own, others⟩ := List.forall_mem_cons.mp made
    intro a member
    by_cases last : rest = []
    · rw [last, List.intercalate_singleton] at member
      exact .inl (own.2 a member)
    · rw [List.intercalate_cons_of_ne_nil last] at member
      rcases List.mem_append.mp member with first | behind
      · rcases List.mem_append.mp first with inside | between
        · exact .inl (own.2 a inside)
        · exact .inr (List.mem_singleton.mp between)
      · exact ih others a behind

theorem head_intercalate (made : ∀ part ∈ parts, Part p part) :
    ∀ a ∈ (List.intercalate [sep] parts).head?, p a = true := by
  cases parts with
  | nil => simp
  | cons part rest =>
    obtain ⟨nonempty, all⟩ := made part List.mem_cons_self
    obtain ⟨b, tail, rfl⟩ := List.exists_cons_of_ne_nil nonempty
    intro a first
    obtain rfl : b = a := by
      by_cases last : rest = []
      · simpa [last] using first
      · simpa [List.intercalate_cons_of_ne_nil last] using first
    exact all b List.mem_cons_self

theorem getLast_intercalate (made : ∀ part ∈ parts, Part p part) :
    ∀ a ∈ (List.intercalate [sep] parts).getLast?, p a = true := by
  induction parts with
  | nil => simp
  | cons part rest ih =>
    obtain ⟨own, others⟩ := List.forall_mem_cons.mp made
    intro a final
    by_cases last : rest = []
    · rw [last, List.intercalate_singleton] at final
      exact own.2 a (List.mem_of_getLast? final)
    · rw [List.intercalate_cons_of_ne_nil last,
        List.getLast?_append_of_ne_nil _ (intercalate_ne_nil others last)] at final
      exact ih others a final

/-- No two separators stand next to each other. -/
theorem chain_intercalate (made : ∀ part ∈ parts, Part p part) (cut : p sep = false) :
    (List.intercalate [sep] parts).IsChain fun a b => ¬(a = sep ∧ b = sep) := by
  induction parts with
  | nil => exact List.isChain_nil
  | cons part rest ih =>
    obtain ⟨own, others⟩ := List.forall_mem_cons.mp made
    have inside : part.IsChain fun a b => ¬(a = sep ∧ b = sep) := by
      refine List.isChain_iff_forall_rel_of_append_cons_cons.mpr ?_
      intro a b before after shape both
      exact own.ne_sep cut (shape ▸ List.mem_append_right before List.mem_cons_self) both.1
    by_cases last : rest = []
    · rw [last, List.intercalate_singleton]
      exact inside
    · rw [List.intercalate_cons_of_ne_nil last, List.append_assoc, List.isChain_append]
      refine ⟨inside, ?_, ?_⟩
      · rw [List.isChain_append]
        refine ⟨List.isChain_singleton _, ih others, ?_⟩
        intro a _ b first both
        have value := head_intercalate others b first
        rw [both.2, cut] at value
        exact nomatch value
      · intro a final b _ both
        exact own.ne_sep cut (List.mem_of_getLast? final) both.1

/-- The length of a part and at least one more. -/
theorem length_intercalate_take_succ {rest : List (List α)} (some_ : rest ≠ []) (k : ℕ) :
    (List.intercalate [sep] ((part :: rest).take (k + 2))).length =
      part.length + 1 + (List.intercalate [sep] (rest.take (k + 1))).length := by
  obtain ⟨next, later, rfl⟩ := List.exists_cons_of_ne_nil some_
  rw [List.take_succ_cons, List.take_succ_cons,
    List.intercalate_cons_of_ne_nil (List.cons_ne_nil _ _)]
  simp only [List.length_append, List.length_singleton]

/-- The separators stand where the first so many parts end. -/
theorem getElem_intercalate_eq_sep (made : ∀ part ∈ parts, Part p part) (cut : p sep = false)
    (i : ℕ) : (List.intercalate [sep] parts)[i]? = some sep ↔
      ∃ k, 0 < k ∧ k < parts.length ∧ (List.intercalate [sep] (parts.take k)).length = i := by
  induction parts generalizing i with
  | nil => simp
  | cons part rest ih =>
    obtain ⟨own, others⟩ := List.forall_mem_cons.mp made
    have clean : part[i]? ≠ some sep := fun found =>
      own.ne_sep cut (List.mem_of_getElem? found) rfl
    by_cases last : rest = []
    · rw [last, List.intercalate_singleton]
      refine iff_of_false clean ?_
      rintro ⟨k, positive, few, _⟩
      rw [List.length_singleton] at few
      omega
    have first : (List.intercalate [sep] ((part :: rest).take 1)).length = part.length := by
      simp
    have next : ∀ k, (List.intercalate [sep] ((part :: rest).take (k + 2))).length =
        part.length + 1 + (List.intercalate [sep] (rest.take (k + 1))).length :=
      length_intercalate_take_succ last
    rw [List.intercalate_cons_of_ne_nil last, List.append_assoc]
    rcases Nat.lt_trichotomy i part.length with before | at_ | behind
    · -- inside the first part
      rw [List.getElem?_append_left before]
      refine iff_of_false clean ?_
      rintro ⟨k, positive, few, ends⟩
      match k with
      | 1 => omega
      | k + 2 =>
        have longer := next k
        omega
    · subst at_
      rw [List.getElem?_append_right le_rfl, Nat.sub_self]
      exact iff_of_true rfl ⟨1, Nat.one_pos, by simpa using List.length_pos_iff.mpr last, first⟩
    · obtain ⟨j, rfl⟩ := Nat.exists_eq_add_of_lt behind
      have shifted : ([sep] ++ List.intercalate [sep] rest)[part.length + j + 1 - part.length]? =
          (List.intercalate [sep] rest)[j]? := by
        rw [Nat.add_assoc, Nat.add_sub_cancel_left, List.singleton_append, List.getElem?_cons_succ]
      rw [List.getElem?_append_right behind.le, shifted, ih others]
      constructor
      · rintro ⟨k, positive, few, ends⟩
        obtain ⟨m, rfl⟩ := Nat.exists_eq_add_of_lt positive
        refine ⟨m + 2, by omega, ?_, ?_⟩
        · rw [List.length_cons]
          omega
        · rw [next m]
          rw [Nat.zero_add] at ends
          omega
      · rintro ⟨k, positive, few, ends⟩
        match k with
        | 1 => omega
        | m + 2 =>
          rw [next m] at ends
          rw [List.length_cons] at few
          exact ⟨m + 1, by omega, by omega, by omega⟩

end Joined

/-! Some of the parts, joined. -/

theorem intercalate_sublist {sep : α} {kept parts : List (List α)} (sub : kept.Sublist parts) :
    (List.intercalate [sep] kept).Sublist (List.intercalate [sep] parts) := by
  induction sub with
  | slnil => exact .refl _
  | @cons kept parts part sub ih =>
    by_cases last : parts = []
    · subst last
      rw [List.sublist_nil.mp sub, List.intercalate_nil]
      exact List.nil_sublist _
    · rw [List.intercalate_cons_of_ne_nil last]
      exact ih.trans (List.sublist_append_right _ _)
  | @cons_cons kept parts part sub ih =>
    by_cases last : parts = []
    · subst last
      rw [List.sublist_nil.mp sub]
    · rw [List.intercalate_cons_of_ne_nil last, List.append_assoc]
      by_cases alone : kept = []
      · rw [alone, List.intercalate_singleton]
        exact List.sublist_append_left _ _
      · rw [List.intercalate_cons_of_ne_nil alone, List.append_assoc]
        exact (List.Sublist.refl part).append ((List.Sublist.refl [sep]).append ih)

/-- What is left out gives nothing, where the rest gives the same. -/
theorem flatMap_filter_eq_iff {β : Type*} (p : α → Bool) (f : α → List β) (l : List α) :
    (l.filter p).flatMap f = l.flatMap f ↔ ∀ a ∈ l, p a = false → f a = [] := by
  induction l with
  | nil => simp
  | cons a l ih =>
    have shorter : ((l.filter p).flatMap f).length ≤ (l.flatMap f).length :=
      (List.filter_sublist.flatMap f).length_le
    rw [List.forall_mem_cons, ← ih, List.flatMap_cons]
    cases keep : p a with
    | true =>
      rw [List.filter_cons_of_pos keep, List.flatMap_cons, List.append_cancel_left_eq]
      simp
    | false =>
      rw [List.filter_cons_of_neg (Bool.eq_false_iff.mp keep)]
      constructor
      · intro same
        have lengths := congrArg List.length same
        rw [List.length_append] at lengths
        have none_ : f a = [] := List.eq_nil_of_length_eq_zero (by omega)
        refine ⟨fun _ => none_, ?_⟩
        rw [same, none_, List.nil_append]
      · rintro ⟨none_, same⟩
        rw [none_ rfl, same, List.nil_append]

end BusinessOs.Lib.Runs
