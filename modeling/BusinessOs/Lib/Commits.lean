/- digest: Programs that commit their writes one by one and look at the state before each part:
     loops of them, what they leave behind, and conditions that each meets where it is made. -/

import Mathlib.Data.List.Basic

set_option autoImplicit false
set_option relaxedAutoImplicit false

namespace BusinessOs.Lib.Commits

universe u v w

variable {σ : Type u} {κ : Type v} {α : Type w}

section Programs

variable (apply : σ → κ → σ)

/-- The state behind some commits. -/
def replay (s : σ) (commits : List κ) : σ := commits.foldl apply s

/-- A part, and one that looks at what the first has left. -/
def andThen (s : σ) (first : List κ) (second : σ → List κ) : List κ :=
  first ++ second (replay apply s first)

/-- A loop whose turns look at what the turns before have left. -/
def loop (turn : σ → α → List κ) : List α → σ → List κ
  | [], _ => []
  | x :: xs, s => andThen apply s (turn s x) (loop turn xs)

/-- Every commit meets a condition in the state in which it is made. -/
inductive Meets (P : σ → κ → Prop) : σ → List κ → Prop
  | nil (s : σ) : Meets P s []
  | cons {s : σ} {c : κ} {cs : List κ} (here : P s c) (rest : Meets P (apply s c) cs) :
      Meets P s (c :: cs)

end Programs

section Replay

variable {apply : σ → κ → σ}

theorem replay_append (s : σ) (first second : List κ) :
    replay apply s (first ++ second) = replay apply (replay apply s first) second :=
  List.foldl_append

theorem replay_andThen (s : σ) (first : List κ) (second : σ → List κ) :
    replay apply s (andThen apply s first second) =
      replay apply (replay apply s first) (second (replay apply s first)) :=
  replay_append s first _

/-- A loop does what its turns do one after the other. -/
theorem replay_loop (turn : σ → α → List κ) (xs : List α) (s : σ) :
    replay apply s (loop apply turn xs s) =
      xs.foldl (fun s x => replay apply s (turn s x)) s := by
  induction xs generalizing s with
  | nil => rfl
  | cons x xs ih => rw [loop, replay_andThen, ih, List.foldl_cons]

/-- A loop whose turns find nothing to do. -/
theorem loop_idle {turn : σ → α → List κ} {xs : List α} {s : σ} (idle : ∀ x ∈ xs, turn s x = []) :
    loop apply turn xs s = [] := by
  induction xs with
  | nil => rfl
  | cons x xs ih =>
    obtain ⟨own, others⟩ := List.forall_mem_cons.mp idle
    rw [loop, own]
    exact ih others

/-- What one commit alone brings about is so behind some commits if it was before or this is one of
them. -/
theorem replay_iff_mem {I : σ → Prop} {c : κ} (one : ∀ s d, I (apply s d) ↔ I s ∨ c = d) (s : σ)
    (commits : List κ) : I (replay apply s commits) ↔ I s ∨ c ∈ commits := by
  induction commits generalizing s with
  | nil => exact (or_iff_left List.not_mem_nil).symm
  | cons d commits ih => rw [replay, List.foldl_cons, ← replay, ih, one, or_assoc, List.mem_cons]

end Replay

section Conditions

variable {apply : σ → κ → σ} {P : σ → κ → Prop} {s : σ} {commits first second : List κ}

theorem Meets.append (start : Meets apply P s first)
    (rest : Meets apply P (replay apply s first) second) : Meets apply P s (first ++ second) := by
  induction start with
  | nil _ => exact rest
  | cons here _ ih => exact .cons here (ih rest)

theorem Meets.split (meets : Meets apply P s (first ++ second)) :
    Meets apply P s first ∧ Meets apply P (replay apply s first) second := by
  induction first generalizing s with
  | nil => exact ⟨.nil s, meets⟩
  | cons c first ih =>
    cases meets with
    | cons here rest =>
      obtain ⟨before, after⟩ := ih rest
      exact ⟨.cons here before, after⟩

theorem Meets.of_mem {c : κ} (meets : Meets apply P s commits) (member : c ∈ commits) :
    ∃ before after, commits = before ++ c :: after ∧ P (replay apply s before) c := by
  obtain ⟨before, after, rfl⟩ := List.append_of_mem member
  cases meets.split.2 with
  | cons here _ => exact ⟨before, after, rfl, here⟩

/-- What a commit that meets the condition keeps, all of them keep. -/
theorem Meets.invariant {I : σ → Prop} (keep : ∀ s c, I s → P s c → I (apply s c))
    (meets : Meets apply P s commits) (start : I s) : I (replay apply s commits) := by
  induction meets with
  | nil _ => exact start
  | cons here _ ih => exact ih (keep _ _ start here)

theorem Meets.andThen {next : σ → List κ} (start : Meets apply P s first)
    (rest : Meets apply P (replay apply s first) (next (replay apply s first))) :
    Meets apply P s (Commits.andThen apply s first next) :=
  start.append rest

/-- A loop meets the condition if its turns do wherever an invariant of the loop holds. -/
theorem Meets.loop {I : σ → Prop} {turn : σ → α → List κ} {xs : List α}
    (turns : ∀ s, ∀ x ∈ xs, I s → Meets apply P s (turn s x) ∧ I (replay apply s (turn s x)))
    (start : I s) : Meets apply P s (Commits.loop apply turn xs s) := by
  induction xs generalizing s with
  | nil => exact .nil s
  | cons x xs ih =>
    obtain ⟨here, next⟩ := turns s x List.mem_cons_self start
    refine here.andThen (ih ?_ next)
    intro t y later held
    exact turns t y (List.mem_cons_of_mem x later) held

end Conditions

end BusinessOs.Lib.Commits
