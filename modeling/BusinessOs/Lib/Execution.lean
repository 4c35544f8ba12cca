/- digest: Finite labelled runs, invariants carried along them, and steps that meet a condition. -/

import Mathlib.Order.Defs.LinearOrder
import Mathlib.Data.List.Basic
import Mathlib.Tactic.TypeStar

set_option autoImplicit false
set_option relaxedAutoImplicit false

namespace BusinessOs.Lib.Execution

universe u v

variable {σ : Type u} {ε : Type v}

/-- A finite run of a labelled step relation, with its labels in order. -/
inductive Run (step : σ → ε → σ → Prop) : σ → List ε → σ → Prop
  | nil (s : σ) : Run step s [] s
  | cons {s t z : σ} {e : ε} {es : List ε} :
      step s e t → Run step t es z → Run step s (e :: es) z

/-- The step relation of a partial step function. -/
def ofPartial (f : σ → ε → Option σ) : σ → ε → σ → Prop :=
  fun s e t => f s e = some t

/-- Steps of `step` that are taken only where `guard` allows them. -/
def Guarded (guard : σ → ε → Prop) (step : σ → ε → σ → Prop) : σ → ε → σ → Prop :=
  fun s e t => guard s e ∧ step s e t

/-- Steps of `step` that lead to a state with `I`. -/
def Kept (I : σ → Prop) (step : σ → ε → σ → Prop) : σ → ε → σ → Prop :=
  fun s e t => step s e t ∧ I t

/-- States that some run reaches from an initial state. -/
def Reachable (init : σ → Prop) (step : σ → ε → σ → Prop) (t : σ) : Prop :=
  ∃ s es, init s ∧ Run step s es t

variable {step : σ → ε → σ → Prop} {s t z : σ} {e : ε} {es fs : List ε}

theorem Run.single (h : step s e t) : Run step s [e] t :=
  .cons h (.nil t)

theorem Run.single_iff : Run step s [e] t ↔ step s e t := by
  constructor
  · intro h
    cases h with
    | cons first rest =>
      cases rest
      exact first
  · exact Run.single

theorem Run.append (h : Run step s es t) (k : Run step t fs z) : Run step s (es ++ fs) z := by
  induction h with
  | nil _ => exact k
  | cons first _ ih => exact .cons first (ih k)

theorem Run.snoc (h : Run step s es t) (k : step t e z) : Run step s (es ++ [e]) z :=
  h.append (.single k)

/-- A run over two lists of labels passes through a state between them. -/
theorem Run.split (h : Run step s (es ++ fs) z) : ∃ m, Run step s es m ∧ Run step m fs z := by
  induction es generalizing s with
  | nil => exact ⟨s, .nil s, h⟩
  | cons e es ih =>
    cases h with
    | cons first rest =>
      obtain ⟨m, before, after⟩ := ih rest
      exact ⟨m, .cons first before, after⟩

/-- What every step keeps, every run keeps. -/
theorem Run.invariant {I : σ → Prop} (keep : ∀ s e t, I s → step s e t → I t)
    (h : Run step s es t) (start : I s) : I t := by
  induction h with
  | nil _ => exact start
  | cons first _ ih => exact ih (keep _ _ _ start first)

/-- The invariant rule with a step obligation that may also use the label's position in the run. -/
theorem Run.invariant_mem {I : σ → Prop} (h : Run step s es t)
    (keep : ∀ s e t, e ∈ es → I s → step s e t → I t) (start : I s) : I t := by
  induction h with
  | nil _ => exact start
  | cons first _ ih =>
    apply ih
    · intro a b c member
      exact keep a b c (List.mem_cons_of_mem _ member)
    · exact keep _ _ _ List.mem_cons_self start first

/-- Every label of a run is the label of one of its steps. -/
theorem Run.exists_step (h : Run step s es t) (member : e ∈ es) : ∃ a b, step a e b := by
  induction h with
  | nil _ => cases member
  | cons first _ ih =>
    rcases List.mem_cons.mp member with rfl | later
    · exact ⟨_, _, first⟩
    · exact ih later

theorem Run.mono {step' : σ → ε → σ → Prop} (sub : ∀ s e t, step s e t → step' s e t)
    (h : Run step s es t) : Run step' s es t := by
  induction h with
  | nil s => exact .nil s
  | cons first _ ih => exact .cons (sub _ _ _ first) ih

/-- A run seen through what each step shows of it: steps of another relation, or nothing. -/
theorem Run.filterMap {τ α : Type*} {seen : τ → α → τ → Prop} {f : σ → τ} {g : ε → Option α}
    (each : ∀ s e t, step s e t → Run seen (f s) (g e).toList (f t)) (h : Run step s es t) :
    Run seen (f s) (es.filterMap g) (f t) := by
  induction h with
  | nil s => exact .nil (f s)
  | @cons s t z e es first _ ih =>
    have here := each s e t first
    cases shown : g e with
    | none =>
      rw [shown] at here
      rw [List.filterMap_cons_none shown]
      exact here.append ih
    | some a =>
      rw [shown] at here
      rw [List.filterMap_cons_some shown]
      exact here.append ih

theorem Run.unguard {guard : σ → ε → Prop} (h : Run (Guarded guard step) s es t) :
    Run step s es t :=
  h.mono fun _ _ _ k => k.2

/-- A property that each step keeps exactly where a guard allows the step: it holds after a run
exactly when it held before and the guard allowed every step. -/
theorem Run.exactly_guarded {J I : σ → Prop} {guard : σ → ε → Prop}
    (inv : ∀ s e t, J s → step s e t → J t)
    (exactly : ∀ s e t, J s → step s e t → (I t ↔ I s ∧ guard s e))
    (run : Run step s es t) (start : J s) : I t ↔ I s ∧ Run (Guarded guard step) s es t := by
  constructor
  · intro held
    induction run with
    | nil s => exact ⟨held, .nil s⟩
    | cons first _ ih =>
      obtain ⟨later, rest⟩ := ih (inv _ _ _ start first) held
      obtain ⟨before, allowed⟩ := (exactly _ _ _ start first).mp later
      exact ⟨before, .cons ⟨allowed, first⟩ rest⟩
  · rintro ⟨held, guarded⟩
    have keep : ∀ s e t, J s ∧ I s → Guarded guard step s e t → J t ∧ I t := by
      intro s e t both allowed
      exact ⟨inv s e t both.1 allowed.2,
        (exactly s e t both.1 allowed.2).mpr ⟨both.2, allowed.1⟩⟩
    exact (guarded.invariant keep ⟨start, held⟩).2

/-- A property that each step keeps exactly where a guard allows the step: it holds at every state
of a run exactly when the guard allowed every step. What happens behind its loss does not matter. -/
theorem Run.kept_iff_guarded {J I : σ → Prop} {guard : σ → ε → Prop}
    (inv : ∀ s e t, J s → I s → guard s e → step s e t → J t)
    (exactly : ∀ s e t, J s → I s → step s e t → (I t ↔ guard s e))
    (start : J s) (held : I s) :
    Run (Kept I step) s es t ↔ Run (Guarded guard step) s es t := by
  constructor
  · intro run
    induction run with
    | nil s => exact .nil s
    | cons first _ ih =>
      have allowed := (exactly _ _ _ start held first.1).mp first.2
      exact .cons ⟨allowed, first.1⟩ (ih (inv _ _ _ start held allowed first.1) first.2)
  · intro run
    induction run with
    | nil s => exact .nil s
    | cons first _ ih =>
      have kept := (exactly _ _ _ start held first.2).mpr first.1
      exact .cons ⟨first.2, kept⟩ (ih (inv _ _ _ start held first.1 first.2) kept)

/-- Folding a partial step function over labels is a run of its relation. -/
theorem Run.of_foldlM {f : σ → ε → Option σ} (h : es.foldlM f s = some t) :
    Run (ofPartial f) s es t := by
  induction es generalizing s with
  | nil =>
    obtain rfl : s = t := by simpa using h
    exact .nil s
  | cons e es ih =>
    simp only [List.foldlM_cons] at h
    cases first : f s e with
    | none => simp [first] at h
    | some r => exact .cons first (ih (by simpa [first] using h))

/-- Folding with the guard checked before every step is a guarded run. -/
theorem Run.of_guarded_foldlM {f : σ → ε → Option σ} {guard : σ → ε → Prop}
    [∀ s e, Decidable (guard s e)]
    (h : es.foldlM (fun s e => if guard s e then f s e else none) s = some t) :
    Run (Guarded guard (ofPartial f)) s es t := by
  apply (Run.of_foldlM h).mono
  intro a e b taken
  unfold ofPartial at taken
  by_cases allowed : guard a e
  · exact ⟨allowed, by simpa [ofPartial, allowed] using taken⟩
  · simp [allowed] at taken

theorem Reachable.step_right {init : σ → Prop} (h : Reachable init step s) (k : step s e t) :
    Reachable init step t := by
  obtain ⟨a, es, start, run⟩ := h
  exact ⟨a, es ++ [e], start, run.snoc k⟩

end BusinessOs.Lib.Execution
