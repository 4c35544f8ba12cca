/- digest: Records whose state moves from call to call: where the calls that succeed are the edges
     of a machine, the traces that runs of calls leave are the paths of the machine. -/

import BusinessOs.Lib.Execution
import Mathlib.Data.List.Chain

set_option autoImplicit false
set_option relaxedAutoImplicit false

namespace BusinessOs.Lib.Transitions

open BusinessOs.Lib.Execution

universe u v w x

/-- What calls make of a record, and the state that a record is in. -/
structure Calls (ρ : Type u) (κ : Type v) (ε : Type w) (σ : Type x) where
  state : ρ → σ
  call : ρ → κ → Except ε ρ

variable {ρ : Type u} {κ : Type v} {ε : Type w} {σ : Type x} (m : Calls ρ κ ε σ)

/-- The states behind the calls that succeed, in order. -/
def Calls.trace : ρ → List κ → List σ
  | _, [] => []
  | r, c :: cs =>
    match m.call r c with
    | .ok next => m.state next :: Calls.trace next cs
    | .error _ => Calls.trace r cs

/-- The calls that succeed, in order. -/
def Calls.taken : ρ → List κ → List κ
  | _, [] => []
  | r, c :: cs =>
    match m.call r c with
    | .ok next => c :: Calls.taken next cs
    | .error _ => Calls.taken r cs

/-- The calls that succeed are the edges of a machine. -/
structure Calls.Exact (edge : σ → σ → Prop) : Prop where
  sound : ∀ r c next, m.call r c = .ok next → edge (m.state r) (m.state next)
  complete : ∀ r t, edge (m.state r) t → ∃ c next, m.call r c = .ok next ∧ m.state next = t

variable {m} {edge : σ → σ → Prop} {r next : ρ} {c : κ} {cs : List κ}

theorem trace_ok (taken : m.call r c = .ok next) :
    m.trace r (c :: cs) = m.state next :: m.trace next cs := by
  rw [Calls.trace, taken]

theorem trace_error {e : ε} (refused : m.call r c = .error e) :
    m.trace r (c :: cs) = m.trace r cs := by
  rw [Calls.trace, refused]

theorem taken_ok (made : m.call r c = .ok next) : m.taken r (c :: cs) = c :: m.taken next cs := by
  rw [Calls.taken, made]

theorem taken_error {e : ε} (refused : m.call r c = .error e) :
    m.taken r (c :: cs) = m.taken r cs := by
  rw [Calls.taken, refused]

/-- Every trace is a path. -/
theorem Calls.Exact.chain (exact : m.Exact edge) (r : ρ) (cs : List κ) :
    List.IsChain edge (m.state r :: m.trace r cs) := by
  induction cs generalizing r with
  | nil => exact .singleton _
  | cons c cs ih =>
    cases made : m.call r c with
    | ok next =>
      rw [trace_ok made]
      exact .cons_cons (exact.sound r c next made) (ih next)
    | error e =>
      rw [trace_error made]
      exact ih r

/-- The traces of a record are the paths that begin at its state. -/
theorem Calls.Exact.traces (exact : m.Exact edge) (r : ρ) (path : List σ) :
    (∃ cs, m.trace r cs = path) ↔ List.IsChain edge (m.state r :: path) := by
  constructor
  · rintro ⟨cs, rfl⟩
    exact exact.chain r cs
  · intro chain
    induction path generalizing r with
    | nil => exact ⟨[], rfl⟩
    | cons t path ih =>
      obtain ⟨first, rest⟩ := List.isChain_cons_cons.mp chain
      obtain ⟨c, next, made, rfl⟩ := exact.complete r t first
      obtain ⟨cs, tail⟩ := ih next rest
      exact ⟨c :: cs, by rw [trace_ok made, tail]⟩

/-- A record with the last reading of the clock. -/
structure Clocked (ρ : Type u) (τ : Type v) where
  record : ρ
  clock : τ

section Clocked

variable {τ : Type*} [LE τ]

/-- A call reads the clock twice, and where it is refused changes nothing. -/
inductive Calls.Step (m : Calls ρ κ ε σ) (first last : κ → τ) :
    Clocked ρ τ → κ → Clocked ρ τ → Prop
  | taken {r next : ρ} {clock : τ} {c : κ} (made : m.call r c = .ok next)
      (later : clock ≤ first c) (order : first c ≤ last c) :
      Calls.Step m first last ⟨r, clock⟩ c ⟨next, last c⟩
  | refused {w : Clocked ρ τ} {c : κ} {e : ε} (made : m.call w.record c = .error e) :
      Calls.Step m first last w c w

variable {first last : κ → τ} {s t : Clocked ρ τ}

/-- What every call that succeeds keeps holds after every run. -/
theorem Calls.Step.law {law : ρ → τ → Prop} (run : Run (m.Step first last) s cs t)
    (keep : ∀ r next clock c, law r clock → m.call r c = .ok next → clock ≤ first c →
      first c ≤ last c → law next (last c)) (start : law s.record s.clock) :
    law t.record t.clock := by
  refine run.invariant (I := fun w => law w.record w.clock) (fun s c t before step => ?_) start
  cases step with
  | taken made later order => exact keep _ _ _ _ before made later order
  | refused made => exact before

/-- A part of the record that each call that succeeds updates is told by those calls alone. -/
theorem Calls.Step.told {α : Type*} (part : ρ → α) (tell : α → List κ → α)
    (run : Run (m.Step first last) s cs t) (none_ : ∀ a, tell a [] = a)
    (each : ∀ r next c rest, m.call r c = .ok next →
      tell (part next) rest = tell (part r) (c :: rest)) :
    part t.record = tell (part s.record) (m.taken s.record cs) := by
  induction run with
  | nil s =>
    rw [Calls.taken]
    exact (none_ _).symm
  | cons step _ ih =>
    cases step with
    | taken made later order =>
      rw [taken_ok made, ih]
      exact each _ _ _ _ made
    | refused made =>
      rw [taken_error made]
      exact ih

/-- A record in a state without edges stays as it is. -/
theorem Calls.Exact.absorbed (exact : m.Exact edge) (final : ∀ t, ¬ edge (m.state s.record) t)
    (run : Run (m.Step first last) s cs t) : t.record = s.record := by
  refine run.invariant (I := fun w => w.record = s.record) (fun a c b same step => ?_) rfl
  cases step with
  | @taken r next clock c made later order =>
    obtain rfl : r = s.record := same
    exact absurd (exact.sound _ c next made) (final _)
  | refused made => exact same

end Clocked

end BusinessOs.Lib.Transitions
