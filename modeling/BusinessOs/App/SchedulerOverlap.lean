/- Source: app/services/scheduler.py, app/agents/orchestrator.py
   digest: A pass that overlaps with another one can go on to a second start of a workflow. -/

import BusinessOs.App.SchedulerRuns

set_option autoImplicit false
set_option relaxedAutoImplicit false

namespace BusinessOs.App.SchedulerOverlap

open BusinessOs.Lib BusinessOs.Lib.Execution BusinessOs.Lib.Interleaving BusinessOs.Lib.Json.Tree
open BusinessOs.App.Models BusinessOs.App.Workflows BusinessOs.App.Scheduler
open BusinessOs.App.SchedulerRuns

variable {P : Type} [DecidableEq P] {p q : P} {s t u : World P}

/-- Some steps of `p` alone lead from `s` to `t`. -/
structure Alone (p : P) (s t : World P) : Prop where
  run : ∃ es, Run (ofPartial step) s es t
  others : ∀ q, q ≠ p → t.phase q = s.phase q

theorem Alone.refl (p : P) (s : World P) : Alone p s s :=
  ⟨⟨[], .nil s⟩, fun _ _ => rfl⟩

theorem Alone.trans (first : Alone p s t) (second : Alone p t u) : Alone p s u := by
  obtain ⟨⟨es, run⟩, others⟩ := first
  obtain ⟨⟨fs, later⟩, still⟩ := second
  exact ⟨⟨es ++ fs, run.append later⟩, fun q ne => (still q ne).trans (others q ne)⟩

theorem Alone.step {e : Event P} {db : Database} {phase : Phase}
    (taken : Scheduler.step s e = some (s.move p db phase)) : Alone p s (s.move p db phase) :=
  ⟨⟨[e], .single taken⟩, fun _ ne => move_of_ne ne⟩

section Advance

variable {workflow : WorkflowCopy} {rest before : List WorkflowCopy}

/-- The remaining records are committed, and the call returns. -/
theorem finishing_advances {records : List Record}
    (at_ : s.phase p = .finishing workflow records rest) :
    ∃ t, Alone p s t ∧ t.phase p = .looping rest := by
  induction records generalizing s with
  | nil =>
    have taken : Scheduler.step s (.next p) = some (s.move p s.db (.looping rest)) := by
      simp only [Scheduler.step, at_]
    exact ⟨_, .step taken, move_self⟩
  | cons record records ih =>
    have taken : Scheduler.step s (.record p) =
        some (s.move p (record.commit s.db) (.finishing workflow records rest)) := by
      simp only [Scheduler.step, at_]
    obtain ⟨t, alone, looping⟩ := ih (s := s.move p _ _) move_self
    exact ⟨t, (Alone.step taken).trans alone, looping⟩

theorem running_advances (at_ : s.phase p = .running workflow rest) :
    ∃ t, Alone p s t ∧ t.phase p = .looping rest := by
  have taken : Scheduler.step s (.finish p (.ok .null) "") =
      some (s.move p ((finish workflow (.ok .null)).commit s.db)
        (.finishing (finish workflow (.ok .null)).committed
          (finishRecords workflow "" (.ok .null)) rest)) := by
    simp only [Scheduler.step, at_]
  obtain ⟨t, alone, looping⟩ := finishing_advances (s := s.move p _ _) move_self
  exact ⟨t, (Alone.step taken).trans alone, looping⟩

theorem marked_advances (at_ : s.phase p = .marked workflow rest) :
    ∃ t, Alone p s t ∧ t.phase p = .looping rest := by
  have taken : Scheduler.step s (.startAgent p workflow.id) =
      some (s.move p ((startedRecord workflow).commit s.db) (.running workflow rest)) := by
    simp only [Scheduler.step, at_, if_true]
  obtain ⟨t, alone, looping⟩ := running_advances (s := s.move p _ _) move_self
  exact ⟨t, (Alone.step taken).trans alone, looping⟩

/-- A processor at the head of its loop can mark a supported workflow, whatever its row holds. -/
theorem markRunning_enabled (at_ : s.phase p = .looping (workflow :: rest))
    (supported : workflow.supported = true) :
    Scheduler.step s (.markRunning p) = some (s.move p ((markRunning workflow).commit s.db)
      (.marked (markRunning workflow).committed rest)) := by
  simp only [Scheduler.step, at_, supported, if_true]

theorem looping_advances (at_ : s.phase p = .looping (before ++ rest)) :
    ∃ t, Alone p s t ∧ t.phase p = .looping rest := by
  induction before generalizing s with
  | nil => exact ⟨s, .refl p s, at_⟩
  | cons workflow before ih =>
    have passed : ∃ t, Alone p s t ∧ t.phase p = .looping (before ++ rest) := by
      cases kind : workflow.supported with
      | true =>
        obtain ⟨t, alone, looping⟩ := marked_advances (s := s.move p _ _) move_self
        exact ⟨t, (Alone.step (markRunning_enabled at_ kind)).trans alone, looping⟩
      | false =>
        have taken : Scheduler.step s (.unsupported p) =
            some (s.move p s.db (.looping (before ++ rest))) := by
          simp only [Scheduler.step, at_, List.cons_append, kind, Bool.false_eq_true, if_false]
        exact ⟨_, .step taken, move_self⟩
    obtain ⟨t, alone, looping⟩ := passed
    obtain ⟨u, further, arrived⟩ := ih looping
    exact ⟨u, alone.trans further, arrived⟩

/-- A processor can come to any workflow that its loop has still to visit. -/
theorem loop_advances (at_ : (s.phase p).loop = before ++ workflow :: rest) :
    ∃ t, Alone p s t ∧ t.phase p = .looping (workflow :: rest) := by
  have looped : ∃ t, Alone p s t ∧ t.phase p = .looping (before ++ workflow :: rest) := by
    cases phase : s.phase p with
    | idle => simp [phase, Phase.loop] at at_
    | looping => exact ⟨s, .refl p s, by rw [phase, ← at_, phase, Phase.loop]⟩
    | marked => exact marked_advances (by rw [phase, ← at_, phase, Phase.loop])
    | running => exact running_advances (by rw [phase, ← at_, phase, Phase.loop])
    | finishing => exact finishing_advances (by rw [phase, ← at_, phase, Phase.loop])
  obtain ⟨t, alone, looping⟩ := looped
  obtain ⟨u, further, arrived⟩ := looping_advances looping
  exact ⟨u, alone.trans further, arrived⟩

end Advance

/-- A processor about to start a workflow that another one is inside breaks the law. -/
theorem second_start {s₀ : World P} {es : List (Event P)} {workflow : WorkflowCopy}
    {rest : List WorkflowCopy} (at_ : s.phase p = .looping (workflow :: rest))
    (supported : workflow.supported = true) (other : q ≠ p)
    (inside : (s.phase q).inside = some workflow.id) :
    ¬ AtMostOnce (ofPartial step) s₀ es s := by
  intro law
  obtain ⟨w, r, _, head, _, _, alone⟩ := law.start p _ (markRunning_enabled at_ supported)
  cases at_.symm.trans head
  exact alone q other inside

/-- What a processor holds is the workflow it is inside or one that its loop has still to visit. -/
theorem held_cases {phase : Phase} {id : String} (held : id ∈ phase.held) :
    phase.inside = some id ∨ ∃ workflow ∈ phase.rest, workflow.id = id := by
  rcases List.mem_append.mp held with now | later
  · exact .inl (Option.mem_toList.mp now)
  · exact .inr (List.mem_map.mp later)

/-- If two passes come to hold one workflow, then some way to go on starts it while another
processor is inside it. -/
theorem overlap_breaks (inv : Inv s) (other : q ≠ p) (idle : s.phase p = .idle)
    {row : Workflow} (selected : row ∈ pendingWorkflows s.db.workflows)
    (supported : (WorkflowCopy.load row).supported = true) (held : row.id ∈ (s.phase q).held) :
    ∃ es t, Run (ofPartial step) s (.select p :: es) t ∧
      ∀ s₀ es₀, ¬ AtMostOnce (ofPartial step) s₀ es₀ t := by
  have first : step s (.select p) = some (s.move p s.db
      (.looping ((pendingWorkflows s.db.workflows).map WorkflowCopy.load))) := by
    simp only [step, idle]
  obtain ⟨before, after, split⟩ := List.append_of_mem selected
  rw [split, List.map_append, List.map_cons] at first
  have waiting : (s.move p s.db (.looping (before.map WorkflowCopy.load ++
      .load row :: after.map WorkflowCopy.load))).phase p = .looping
        (before.map WorkflowCopy.load ++ .load row :: after.map WorkflowCopy.load) := move_self
  obtain ⟨t, alone, head⟩ := looping_advances waiting
  obtain ⟨es, run⟩ := alone.run
  have still : t.phase q = s.phase q := (alone.others q other).trans (move_of_ne other)
  rcases held_cases held with inside | ⟨workflow, queued, own⟩
  · -- `q` has committed its outcome but not returned: its row is pending again
    exact ⟨es, t, .cons first run, fun _ _ =>
      second_start head supported other (still ▸ inside)⟩
  · -- `q` has the workflow ahead of it: `p` marks it, and `q` comes to it with its own copy
    obtain ⟨r, found, _, copy⟩ := (inv.good q).rest workflow queued
    obtain ⟨inTable, _⟩ := pendingWorkflows_mem selected
    have same : some r = some row :=
      (own ▸ found).symm.trans (Table.get_of_mem inv.keys inTable)
    cases same
    obtain ⟨earlier, later, queue⟩ := List.append_of_mem (List.mem_filter.mp queued).1
    have marked := markRunning_enabled head supported
    have ahead : ((t.move p ((markRunning (.load row)).commit t.db)
        (.marked (markRunning (.load row)).committed (after.map WorkflowCopy.load))).phase q).loop =
          earlier ++ workflow :: later := by
      rw [move_of_ne other, still, queue]
    obtain ⟨u, further, arrived⟩ := loop_advances ahead
    obtain ⟨fs, continued⟩ := further.run
    refine ⟨es ++ .markRunning p :: fs, u, .cons first (run.append (.cons marked continued)),
      fun _ _ => second_start arrived (copy ▸ supported) (Ne.symm other) ?_⟩
    rw [further.others p (Ne.symm other), move_self, copy]
    rfl

end BusinessOs.App.SchedulerOverlap
