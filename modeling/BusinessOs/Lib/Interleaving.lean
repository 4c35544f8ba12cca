/- digest: Parties that move in turn over one shared store, and what a move of one of them keeps. -/

import Mathlib.Logic.Function.Basic
import Mathlib.Tactic.TypeStar

set_option autoImplicit false
set_option relaxedAutoImplicit false

namespace BusinessOs.Lib.Interleaving

universe u v w

/-- A shared store, and where each party stands with what it keeps for itself. -/
structure World (P : Type u) (D : Type v) (F : Type w) where
  db : D
  phase : P → F

variable {P : Type u} {D : Type v} {F : Type w} {K V : Type*}

/-- No two parties hold one key. -/
def Apart (holds : F → K → Prop) (s : World P D F) : Prop :=
  ∀ p q, p ≠ q → ∀ k, holds (s.phase p) k → ¬ holds (s.phase q) k

/-- A law of a phase that depends on the store only at the keys that the phase holds. -/
def Framed (read : D → K → V) (holds : F → K → Prop) (law : D → F → Prop) : Prop :=
  ∀ db db' phase, (∀ k, holds phase k → read db' k = read db k) → law db phase → law db' phase

variable [DecidableEq P]

/-- One party moves on, and leaves the store as `db`. -/
def World.move (s : World P D F) (p : P) (db : D) (phase : F) : World P D F where
  db
  phase := Function.update s.phase p phase

section Move

variable {s : World P D F} {p : P} {db : D} {phase : F}

@[simp] theorem move_self : (s.move p db phase).phase p = phase := Function.update_self ..

theorem move_of_ne {q : P} (other : q ≠ p) : (s.move p db phase).phase q = s.phase q :=
  Function.update_of_ne other ..

/-- What holds of the moving party's new phase and of every other party holds of all. -/
theorem forall_move {law : F → Prop} (here : law phase)
    (there : ∀ q, q ≠ p → law (s.phase q)) (q : P) : law ((s.move p db phase).phase q) := by
  by_cases own : q = p
  · rw [own, move_self]
    exact here
  · rw [move_of_ne own]
    exact there q own

theorem exists_move {law : F → Prop}
    (some_ : law phase ∨ ∃ q, q ≠ p ∧ law (s.phase q)) :
    ∃ q, law ((s.move p db phase).phase q) := by
  rcases some_ with here | ⟨q, other, there⟩
  · refine ⟨p, ?_⟩
    rw [move_self]
    exact here
  · refine ⟨q, ?_⟩
    rw [move_of_ne other]
    exact there

variable {holds : F → K → Prop}

/-- A party may take keys that no other one holds. -/
theorem Apart.move (apart : Apart holds s)
    (free : ∀ k, holds phase k → ∀ q, q ≠ p → ¬ holds (s.phase q) k) :
    Apart holds (s.move p db phase) := by
  intro q r ne k
  by_cases hq : q = p
  · subst hq
    rw [move_self, move_of_ne (Ne.symm ne)]
    exact fun here => free k here r (Ne.symm ne)
  · rw [move_of_ne hq]
    by_cases hr : r = p
    · subst hr
      rw [move_self]
      exact fun there here => free k here q hq there
    · rw [move_of_ne hr]
      exact apart q r ne k

omit [DecidableEq P] in
/-- Keys that a party holds already are free for it. -/
theorem Apart.free (apart : Apart holds s)
    (within : ∀ k, holds phase k → holds (s.phase p) k) :
    ∀ k, holds phase k → ∀ q, q ≠ p → ¬ holds (s.phase q) k :=
  fun k here q other => apart p q (Ne.symm other) k (within k here)

/-- A party that changes the store only at keys that it holds keeps the law of every other one. -/
theorem Apart.laws {read : D → K → V} {law : D → F → Prop} (apart : Apart holds s)
    (framed : Framed read holds law) (here : law db phase) (laws : ∀ q, law s.db (s.phase q))
    (others : ∀ k, ¬ holds (s.phase p) k → read db k = read s.db k) :
    ∀ q, law db ((s.move p db phase).phase q) := by
  refine forall_move here fun q other => ?_
  refine framed s.db db (s.phase q) (fun k there => others k fun held => ?_) (laws q)
  exact apart q p other k there held

end Move

end BusinessOs.Lib.Interleaving
