/- digest: Calls that write the records of one key each, step by step and interleaved: what a store
     holds of a key follows from where its call stands, or from how its call ended. -/

import BusinessOs.Lib.Interleaving

set_option autoImplicit false
set_option relaxedAutoImplicit false

namespace BusinessOs.Lib.KeyedCalls

open BusinessOs.Lib.Interleaving

universe u v w x

/-- How calls keep their records: what the store holds of a key, the key of a call that is under
way or has stopped, what the store holds of it then, and what a call that is over leaves. -/
structure Discipline (D : Type u) (F : Type v) (K : Type w) (V : Type x) where
  view : D → K → V
  key : F → Option K
  expects : F → V
  complete : K → V → Prop

variable {P : Type*} {D : Type u} {F : Type v} {K : Type w} {V : Type x}

/-- Every key is one call's, whose stage tells what the store holds of it, or complete. -/
structure Kept (d : Discipline D F K V) (s : World P D F) : Prop where
  apart : ∀ p q k, d.key (s.phase p) = some k → d.key (s.phase q) = some k → p = q
  laws : ∀ p k, d.key (s.phase p) = some k → d.view s.db k = d.expects (s.phase p)
  done : ∀ k, (∃ p, d.key (s.phase p) = some k) ∨ d.complete k (d.view s.db k)

section Rules

variable {d : Discipline D F K V} {s : World P D F} {db : D} {p : P} {phase : F} {k : K}

/-- A store in which no call has begun. -/
theorem Kept.initial (idle : ∀ p, d.key (s.phase p) = none)
    (complete : ∀ k, d.complete k (d.view s.db k)) : Kept d s := by
  refine ⟨?_, ?_, fun k => .inr (complete k)⟩
  · intro p q k held
    rw [idle p] at held
    cases held
  · intro p k held
    rw [idle p] at held
    cases held

/-- What changes no record keeps them. -/
theorem Kept.still (kept : Kept d s) (same : ∀ k, d.view db k = d.view s.db k) :
    Kept d { s with db } := by
  refine ⟨kept.apart, ?_, ?_⟩
  · intro p k held
    exact (same k).trans (kept.laws p k held)
  · intro k
    show _ ∨ d.complete k (d.view db k)
    rw [same k]
    exact kept.done k

/-- Nobody's key is complete. -/
theorem Kept.complete (kept : Kept d s) (free : ∀ p, d.key (s.phase p) ≠ some k) :
    d.complete k (d.view s.db k) := by
  rcases kept.done k with ⟨p, held⟩ | complete
  · exact absurd held (free p)
  · exact complete

variable [DecidableEq P]

/-- A call stays where it is, as far as the records are concerned. -/
theorem Kept.relabel (kept : Kept d s) (key : d.key phase = d.key (s.phase p))
    (expects : d.expects phase = d.expects (s.phase p))
    (same : ∀ k, d.view db k = d.view s.db k) : Kept d (s.move p db phase) := by
  have keys : ∀ q, d.key ((s.move p db phase).phase q) = d.key (s.phase q) := by
    intro q
    by_cases hq : q = p
    · rw [hq, move_self, key]
    · rw [move_of_ne hq]
  refine ⟨?_, ?_, ?_⟩
  · intro q r k
    rw [keys q, keys r]
    exact kept.apart q r k
  · intro q k held
    rw [keys q] at held
    refine (same k).trans ((kept.laws q k held).trans ?_)
    by_cases hq : q = p
    · rw [hq, move_self, expects]
    · rw [move_of_ne hq]
  · intro k
    show _ ∨ d.complete k (d.view db k)
    rw [same k]
    refine (kept.done k).imp_left ?_
    rintro ⟨q, held⟩
    exact ⟨q, by rw [keys, held]⟩

/-- A call begins, for a key that nobody has. -/
theorem Kept.begin (kept : Kept d s) (idle : d.key (s.phase p) = none)
    (free : ∀ q, d.key (s.phase q) ≠ some k) (own : d.key phase = some k)
    (here : d.view db k = d.expects phase) (others : ∀ l, l ≠ k → d.view db l = d.view s.db l) :
    Kept d (s.move p db phase) := by
  have stays : ∀ q l, q ≠ p → d.key (s.phase q) = some l → l ≠ k := by
    rintro q l _ held rfl
    exact free q held
  refine ⟨?_, ?_, ?_⟩
  · intro q r l
    by_cases hq : q = p <;> by_cases hr : r = p
    · exact fun _ _ => hq.trans hr.symm
    · rw [hq, move_self, move_of_ne hr, own]
      intro same held
      exact absurd (Option.some.inj same).symm (stays r l hr held)
    · rw [hr, move_self, move_of_ne hq, own]
      intro held same
      exact absurd (Option.some.inj same).symm (stays q l hq held)
    · rw [move_of_ne hq, move_of_ne hr]
      exact kept.apart q r l
  · intro q l
    by_cases hq : q = p
    · rw [hq, move_self, own]
      intro same
      rw [← Option.some.inj same]
      exact here
    · rw [move_of_ne hq]
      intro held
      exact (others l (stays q l hq held)).trans (kept.laws q l held)
  · intro l
    by_cases mine : l = k
    · refine .inl ⟨p, ?_⟩
      rw [move_self, own, mine]
    · show _ ∨ d.complete l (d.view db l)
      rw [others l mine]
      refine (kept.done l).imp_left ?_
      rintro ⟨q, held⟩
      refine ⟨q, ?_⟩
      rw [move_of_ne]
      · exact held
      · rintro rfl
        rw [idle] at held
        cases held

/-- A call goes on, and keeps its key. -/
theorem Kept.advance (kept : Kept d s) (held : d.key (s.phase p) = some k)
    (own : d.key phase = some k) (here : d.view db k = d.expects phase)
    (others : ∀ l, l ≠ k → d.view db l = d.view s.db l) : Kept d (s.move p db phase) := by
  have same : ∀ q, d.key ((s.move p db phase).phase q) = d.key (s.phase q) := by
    intro q
    by_cases hq : q = p
    · rw [hq, move_self, own, held]
    · rw [move_of_ne hq]
  refine ⟨?_, ?_, ?_⟩
  · intro q r l
    rw [same q, same r]
    exact kept.apart q r l
  · intro q l there
    by_cases hq : q = p
    · rw [hq, move_self] at there ⊢
      rw [own] at there
      rw [← Option.some.inj there]
      exact here
    · rw [move_of_ne hq] at there ⊢
      refine (others l ?_).trans (kept.laws q l there)
      rintro rfl
      exact hq (kept.apart q p l there held)
  · intro l
    by_cases mine : l = k
    · exact .inl ⟨p, by rw [move_self, own, mine]⟩
    · show _ ∨ d.complete l (d.view db l)
      rw [others l mine]
      refine (kept.done l).imp_left ?_
      rintro ⟨q, there⟩
      exact ⟨q, by rw [same, there]⟩

/-- A call is over. -/
theorem Kept.finish (kept : Kept d s) (held : d.key (s.phase p) = some k)
    (released : d.key phase = none) (here : d.complete k (d.view db k))
    (others : ∀ l, l ≠ k → d.view db l = d.view s.db l) : Kept d (s.move p db phase) := by
  have busy : ∀ q l, d.key ((s.move p db phase).phase q) = some l →
      q ≠ p ∧ d.key (s.phase q) = some l := by
    intro q l there
    by_cases hq : q = p
    · rw [hq, move_self, released] at there
      cases there
    · rw [move_of_ne hq] at there
      exact ⟨hq, there⟩
  refine ⟨?_, ?_, ?_⟩
  · intro q r l here there
    exact kept.apart q r l (busy q l here).2 (busy r l there).2
  · intro q l there
    obtain ⟨hq, before⟩ := busy q l there
    rw [move_of_ne hq]
    refine (others l ?_).trans (kept.laws q l before)
    rintro rfl
    exact hq (kept.apart q p l before held)
  · intro l
    by_cases mine : l = k
    · rw [mine]
      exact .inr here
    · show _ ∨ d.complete l (d.view db l)
      rw [others l mine]
      refine (kept.done l).imp_left ?_
      rintro ⟨q, there⟩
      refine ⟨q, ?_⟩
      rw [move_of_ne]
      · exact there
      · rintro rfl
        exact mine (Option.some.inj (there.symm.trans held))

end Rules

end BusinessOs.Lib.KeyedCalls
