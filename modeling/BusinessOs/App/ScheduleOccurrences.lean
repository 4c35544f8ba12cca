/- Source: app/services/scheduler.py, app/services/workflows.py
   digest: Passes over the due schedules that may die between two commits, and the workflows that
     they create for one occurrence of a schedule. -/

import BusinessOs.App.Lifecycle
import BusinessOs.Lib.Batches
import BusinessOs.Lib.Execution

set_option autoImplicit false
set_option relaxedAutoImplicit false

namespace BusinessOs.App.ScheduleOccurrences

open BusinessOs.Lib BusinessOs.Lib.Execution BusinessOs.Lib.Interleaving BusinessOs.Lib.Json.Tree
open BusinessOs.App.Models BusinessOs.App.Workflows BusinessOs.App.Company
open BusinessOs.App.Sessions BusinessOs.App.Orchestrator BusinessOs.App.DepartmentAgent
open BusinessOs.App.Lifecycle (Write Task Process dueSchedules nextRun insertWorkflow
  scheduledCreation)

/-- A workflow that a pass created for a schedule, and the time of the pass. -/
structure Occurrence where
  schedule : DepartmentSchedule
  workflowId : String
  now : ℤ
  deriving DecidableEq

/-- One cadence period after the pass. -/
def Occurrence.next (c : Occurrence) : ℤ := nextRun c.now c.schedule.cadence

/-- The rows and the one process that runs the passes, with what a run has made of the schedules:
`created` in order, and in `lost` the schedules whose advance a death prevented, with the time of
the pass. -/
structure World where
  passes : Lifecycle.World Unit
  clock : ℤ
  created : List Occurrence
  lost : List (String × ℤ)

def World.tasks (w : World) : List Task := (w.passes.phase ()).tasks

/-- The turns of its loop that a pass still has to take. -/
def iterations (tasks : List Task) : List (ℤ × DepartmentSchedule) :=
  tasks.filterMap fun task =>
    match task with
    | .iteration now schedule => some (now, schedule)
    | _ => none

/-- The schedules that a pass still has to advance. -/
def advances (tasks : List Task) : List (String × ℤ × ℤ) :=
  tasks.filterMap fun task =>
    match task with
    | .write (.schedule id lastRunAt nextRunAt) => some (id, lastRunAt, nextRunAt)
    | _ => none

/-- What the next turn of the loop creates; it skips a schedule without a department. -/
def creation (s : Lifecycle.World Unit) (workflowId : String) : Option Occurrence :=
  match (s.phase ()).tasks with
  | .iteration now schedule :: _ =>
    ((s.phase ()).get s.db schedule.departmentId).map fun _ => ⟨schedule, workflowId, now⟩
  | _ => none

/-- Steps of the passes. What `ensure_company_layer` commits ahead of the query is left out: it
writes neither schedules nor workflows. -/
inductive Event
  /-- A pass begins, up to its query. -/
  | tick (now : ℤ)
  /-- A turn of its loop, up to the commit of the workflow. -/
  | iterate (workflowId : String) (createdAt : ℤ)
  /-- The next commit. -/
  | commit
  /-- The call of an agent, up to the next commit. -/
  | call (plan : Plan) (other : Behaviour)
  /-- The process dies. -/
  | die

section Step

variable (str : Value → String)

inductive Step (w : World) : Event → World → Prop
  | tick {now : ℤ} {next : Lifecycle.World Unit} (forward : w.clock ≤ now)
      (taken : Lifecycle.step str w.passes (.tick () now) = some next) :
      Step w (.tick now) { w with passes := next, clock := now }
  | iterate {workflowId : String} {createdAt : ℤ} {next : Lifecycle.World Unit}
      (taken : Lifecycle.step str w.passes (.iterate () workflowId createdAt) = some next) :
      Step w (.iterate workflowId createdAt)
        { w with
          passes := next
          created := w.created ++ (creation w.passes workflowId).toList }
  | commit {next : Lifecycle.World Unit}
      (taken : Lifecycle.step str w.passes (.commit ()) = some next) :
      Step w .commit { w with passes := next }
  | call {plan : Plan} {other : Behaviour} {next : Lifecycle.World Unit}
      (taken : Lifecycle.step str w.passes (.call () plan other) = some next) :
      Step w (.call plan other) { w with passes := next }
  | die : Step w .die
      { w with
        passes := w.passes.move () w.passes.db .idle
        lost := w.lost ++ (advances w.tasks).map fun a => (a.1, a.2.1) }

end Step

/-- Two workflows for one schedule come from passes at least one cadence period apart. -/
def Spaced (w : World) : Prop :=
  w.created.Pairwise fun a b => a.schedule.id = b.schedule.id → a.next ≤ b.now

/-- No workflow is created for a schedule within one cadence period of a pass that died between the
commit of its own workflow for the schedule and the advance of the schedule. -/
def Waits (w : World) : Event → Prop
  | .iterate workflowId _ => ∀ c ∈ creation w.passes workflowId, ∀ l ∈ w.lost,
    l.1 = c.schedule.id → nextRun l.2 c.schedule.cadence ≤ c.now
  | _ => True

section Schedules

theorem nextRun_mono {now later : ℤ} (forward : now ≤ later) (cadence : String) :
    nextRun now cadence ≤ nextRun later cadence := by
  unfold nextRun
  dsimp only
  split_ifs <;> omega

variable {s t : Lifecycle.World Unit} {str : Value → String}

/-- No statement of `run_workflow` touches a schedule. -/
theorem execute_schedules (session : Session) (program : List Statement) :
    (execute session program).db.departmentSchedules = session.db.departmentSchedules := by
  induction program generalizing session with
  | nil => rfl
  | cons first rest ih =>
    refine (ih (first.run session)).trans ?_
    cases first <;> rfl

theorem tick_cases {now : ℤ} (taken : Lifecycle.step str s (.tick () now) = some t) :
    (s.phase ()).tasks = [] ∧ t.db = s.db ∧
      (t.phase ()).tasks = (dueSchedules now s.db).map (Task.iteration now) := by
  simp only [Lifecycle.step] at taken
  split at taken
  · rename_i free
    obtain rfl := Option.some.inj taken
    refine ⟨free.2, rfl, ?_⟩
    rw [move_self]
  · cases taken

theorem advance_schedules (call : Lifecycle.Call) (db : CompanyDatabase) :
    (call.advance db).session.db.departmentSchedules = db.departmentSchedules :=
  execute_schedules { call.session with db } call.segment

theorem resume_tasks (process : Process) (call : Lifecycle.Call) :
    (process.resume call).tasks = process.tasks := by
  unfold Process.resume
  split_ifs <;> rfl

/-- The call of an agent changes no schedule and no task. -/
theorem call_cases {plan : Plan} {other : Behaviour}
    (taken : Lifecycle.step str s (.call () plan other) = some t) :
    t.db.departmentSchedules = s.db.departmentSchedules ∧
      (t.phase ()).tasks = (s.phase ()).tasks := by
  simp only [Lifecycle.step] at taken
  cases called : (s.phase ()).call with
  | none => simp only [called, reduceCtorEq] at taken
  | some call =>
    simp only [called] at taken
    split at taken
    · obtain rfl := Option.some.inj taken
      refine ⟨?_, ?_⟩
      · exact (advance_schedules _ _).trans rfl
      · rw [move_self, resume_tasks]
    · cases taken

/-- A turn of the loop skips its schedule, or commits a workflow with the advance to come. -/
theorem iterate_cases {workflowId : String} {createdAt : ℤ}
    (taken : Lifecycle.step str s (.iterate () workflowId createdAt) = some t) :
    t.db.departmentSchedules = s.db.departmentSchedules ∧
      ∃ now schedule rest, (s.phase ()).tasks = .iteration now schedule :: rest ∧
        ((creation s workflowId = none ∧ t.db = s.db ∧ (t.phase ()).tasks = rest) ∨
          (creation s workflowId = some ⟨schedule, workflowId, now⟩ ∧
            (∃ copy, t.db =
              insertWorkflow s.db (scheduledCreation schedule copy workflowId createdAt)) ∧
            iterations (t.phase ()).tasks = iterations rest ∧
            advances (t.phase ()).tasks =
              (schedule.id, now, nextRun now schedule.cadence) :: advances rest)) := by
  simp only [Lifecycle.step] at taken
  unfold creation
  cases called : (s.phase ()).call with
  | some call => simp only [called, reduceCtorEq] at taken
  | none =>
    cases tasks : (s.phase ()).tasks with
    | nil => simp only [called, tasks, reduceCtorEq] at taken
    | cons first rest =>
      cases first with
      | write write => simp only [called, tasks, reduceCtorEq] at taken
      | runWorkflow workflow payload => simp only [called, tasks, reduceCtorEq] at taken
      | iteration now schedule =>
        simp only [called, tasks] at taken
        cases got : (s.phase ()).get s.db schedule.departmentId with
        | none =>
          simp only [got] at taken
          obtain rfl := Option.some.inj taken
          refine ⟨rfl, now, schedule, rest, rfl, .inl ⟨?_, rfl, ?_⟩⟩
          · dsimp only
            rw [got]
            rfl
          · rw [move_self]
        | some copy =>
          simp only [got] at taken
          split at taken
          · obtain rfl := Option.some.inj taken
            refine ⟨rfl, now, schedule, rest, rfl, .inr ⟨?_, ⟨copy, rfl⟩, ?_, ?_⟩⟩
            · dsimp only
              rw [got]
              rfl
            · rw [move_self]
              rfl
            · rw [move_self]
              rfl
          · cases taken

/-- A commit advances a schedule, or changes no schedule and no turn or advance to come. -/
theorem commit_cases (taken : Lifecycle.step str s (.commit ()) = some t) :
    (t.db.departmentSchedules = s.db.departmentSchedules ∧
      iterations (t.phase ()).tasks = iterations (s.phase ()).tasks ∧
      advances (t.phase ()).tasks = advances (s.phase ()).tasks) ∨
    ∃ id last next rest, (s.phase ()).tasks = .write (.schedule id last next) :: rest ∧
      (t.phase ()).tasks = rest ∧
      t.db.departmentSchedules = Table.update DepartmentSchedule.id s.db.departmentSchedules id
        fun schedule => { schedule with lastRunAt := some last, nextRunAt := some next } := by
  simp only [Lifecycle.step] at taken
  cases called : (s.phase ()).call with
  | some call =>
    left
    simp only [called] at taken
    split at taken
    · cases taken
    · obtain rfl := Option.some.inj taken
      refine ⟨(advance_schedules _ _).trans rfl, ?_, ?_⟩
      · rw [move_self, resume_tasks]
      · rw [move_self, resume_tasks]
  | none =>
    cases tasks : (s.phase ()).tasks with
    | nil => simp only [called, tasks, reduceCtorEq] at taken
    | cons first rest =>
      cases first with
      | iteration now schedule => simp only [called, tasks, reduceCtorEq] at taken
      | write write =>
        simp only [called, tasks] at taken
        obtain rfl := Option.some.inj taken
        cases write with
        | audit entry =>
          left
          refine ⟨rfl, ?_, ?_⟩
          · rw [move_self]
            rfl
          · rw [move_self]
            rfl
        | schedule id last next =>
          right
          refine ⟨id, last, next, rest, rfl, ?_, rfl⟩
          rw [move_self]
      | runWorkflow workflow payload =>
        left
        simp only [called, tasks] at taken
        split at taken
        · obtain rfl := Option.some.inj taken
          refine ⟨(advance_schedules _ _).trans rfl, ?_, ?_⟩
          · rw [move_self]
            rfl
          · rw [move_self]
            rfl
        · obtain rfl := Option.some.inj taken
          refine ⟨rfl, ?_, ?_⟩
          · rw [move_self]
            rfl
          · rw [move_self]
            rfl

/-- The query selects rows whose time has come. -/
theorem dueSchedules_mem {now : ℤ} {db : CompanyDatabase} {row : DepartmentSchedule}
    (member : row ∈ dueSchedules now db) :
    row ∈ db.departmentSchedules ∧ ∃ next, row.nextRunAt = some next ∧ next ≤ now := by
  change row ∈ Batches.batch (fun schedule : DepartmentSchedule => schedule.nextRunAt.getD 0) 10 _
    at member
  obtain ⟨inside, selected⟩ := List.mem_filter.mp (Batches.mem_of_mem_batch member)
  simp only [Bool.and_eq_true, Option.any_eq_true, decide_eq_true_eq] at selected
  exact ⟨inside, selected.1.2⟩

theorem dueSchedules_nodup {now : ℤ} {db : CompanyDatabase}
    (keys : (db.departmentSchedules.map DepartmentSchedule.id).Nodup) :
    ((dueSchedules now db).map DepartmentSchedule.id).Nodup := by
  show ((Batches.batch (fun schedule : DepartmentSchedule => schedule.nextRunAt.getD 0) 10
    _).map _).Nodup
  exact Batches.batch_nodup_map (keys.sublist (List.filter_sublist.map _))

theorem iterations_due (now : ℤ) (rows : List DepartmentSchedule) :
    iterations (rows.map (Task.iteration now)) = rows.map fun row => (now, row) := by
  induction rows with
  | nil => rfl
  | cons row rows ih => exact congrArg ((now, row) :: ·) ih

theorem advances_due (now : ℤ) (rows : List DepartmentSchedule) :
    advances (rows.map (Task.iteration now)) = [] := by
  induction rows with
  | nil => rfl
  | cons row rows ih => exact ih

end Schedules

/-- The row of the schedule, if it is due at all, is not due before the next occurrence. -/
def Advanced (db : CompanyDatabase) (c : Occurrence) : Prop :=
  ∀ row ∈ db.departmentSchedules, row.id = c.schedule.id →
    ∀ next, row.nextRunAt = some next → c.next ≤ next

/-- What every run keeps, whatever dies. -/
structure Inv (cadence : String → String) (w : World) : Prop where
  keys : (w.passes.db.departmentSchedules.map DepartmentSchedule.id).Nodup
  rows : ∀ row ∈ w.passes.db.departmentSchedules, row.cadence = cadence row.id
  created : ∀ c ∈ w.created, c.schedule.cadence = cadence c.schedule.id ∧ c.now ≤ w.clock
  lost : ∀ l ∈ w.lost, ∃ c ∈ w.created, l = (c.schedule.id, c.now)
  /-- A schedule with a workflow is advanced, or about to be, or its advance is lost. -/
  covered : ∀ c ∈ w.created, (c.schedule.id, c.now) ∈ w.lost ∨ Advanced w.passes.db c ∨
    (c.schedule.id, c.now, c.next) ∈ advances w.tasks
  /-- A schedule that still has its turn has no workflow of this occurrence, or a lost one. -/
  turns : ∀ i ∈ iterations w.tasks, i.1 = w.clock ∧ i.2.cadence = cadence i.2.id ∧
    ∀ c ∈ w.created, c.schedule.id = i.2.id → (c.schedule.id, c.now) ∈ w.lost ∨ c.next ≤ w.clock
  once : ((iterations w.tasks).map fun i => i.2.id).Nodup
  writes : ∀ a ∈ advances w.tasks, ∃ c ∈ w.created,
    a = (c.schedule.id, c.now, c.next) ∧ c.now = w.clock

section Invariant

variable {str : Value → String} {cadence : String → String} {w t : World} {e : Event}

theorem Inv.tick {now : ℤ} {next : Lifecycle.World Unit} (inv : Inv cadence w)
    (forward : w.clock ≤ now)
    (taken : Lifecycle.step str w.passes (.tick () now) = some next) :
    Inv cadence { w with passes := next, clock := now } := by
  obtain ⟨free, db, tasks⟩ := tick_cases taken
  have schedules : next.db.departmentSchedules = w.passes.db.departmentSchedules := by rw [db]
  have past : ∀ c ∈ w.created, c.now ≤ now := fun c member =>
    (inv.created c member).2.trans forward
  have covered : ∀ c ∈ w.created, (c.schedule.id, c.now) ∈ w.lost ∨ Advanced w.passes.db c := by
    intro c member
    rcases inv.covered c member with lost | advanced | pending
    · exact .inl lost
    · exact .inr advanced
    · rw [World.tasks, free] at pending
      cases pending
  refine ⟨?_, ?_, ?_, inv.lost, ?_, ?_, ?_, ?_⟩
  · show (next.db.departmentSchedules.map _).Nodup
    rw [schedules]
    exact inv.keys
  · show ∀ row ∈ next.db.departmentSchedules, _
    rw [schedules]
    exact inv.rows
  · exact fun c member => ⟨(inv.created c member).1, past c member⟩
  · intro c member
    rcases covered c member with lost | advanced
    · exact .inl lost
    · right
      left
      show ∀ row ∈ next.db.departmentSchedules, _
      rw [schedules]
      exact advanced
  · show ∀ i ∈ iterations (next.phase ()).tasks, _
    rw [tasks, iterations_due]
    intro i member
    obtain ⟨row, due, rfl⟩ := List.mem_map.mp member
    obtain ⟨inside, at_, set, come⟩ := dueSchedules_mem due
    refine ⟨rfl, inv.rows row inside, fun c made same => ?_⟩
    rcases covered c made with lost | advanced
    · exact .inl lost
    · exact .inr ((advanced row inside same.symm at_ set).trans come)
  · show ((iterations (next.phase ()).tasks).map _).Nodup
    rw [tasks, iterations_due, List.map_map]
    exact dueSchedules_nodup inv.keys
  · show ∀ a ∈ advances (next.phase ()).tasks, _
    rw [tasks, advances_due]
    intro a member
    cases member

/-- A step that changes no schedule, and at most takes turns away. -/
theorem Inv.fewer {next : Lifecycle.World Unit} (inv : Inv cadence w)
    (schedules : next.db.departmentSchedules = w.passes.db.departmentSchedules)
    (turns : (iterations (next.phase ()).tasks).Sublist (iterations w.tasks))
    (writes : advances (next.phase ()).tasks = advances w.tasks) :
    Inv cadence { w with passes := next } := by
  refine ⟨?_, ?_, inv.created, inv.lost, ?_, ?_, ?_, ?_⟩
  · show (next.db.departmentSchedules.map _).Nodup
    rw [schedules]
    exact inv.keys
  · show ∀ row ∈ next.db.departmentSchedules, _
    rw [schedules]
    exact inv.rows
  · intro c member
    rcases inv.covered c member with lost | advanced | pending
    · exact .inl lost
    · right
      left
      show ∀ row ∈ next.db.departmentSchedules, _
      rw [schedules]
      exact advanced
    · right
      right
      show _ ∈ advances (next.phase ()).tasks
      rw [writes]
      exact pending
  · exact fun i member => inv.turns i (turns.subset member)
  · exact inv.once.sublist (turns.map _)
  · show ∀ a ∈ advances (next.phase ()).tasks, _
    rw [writes]
    exact inv.writes

theorem Inv.iterate {workflowId : String} {createdAt : ℤ} {next : Lifecycle.World Unit}
    (inv : Inv cadence w)
    (taken : Lifecycle.step str w.passes (.iterate () workflowId createdAt) = some next) :
    Inv cadence
      { w with passes := next, created := w.created ++ (creation w.passes workflowId).toList } := by
  obtain ⟨schedules, now, schedule, rest, tasks, outcome⟩ := iterate_cases taken
  have head : iterations w.tasks = (now, schedule) :: iterations rest := by
    rw [World.tasks, tasks]
    rfl
  have tail : advances w.tasks = advances rest := by
    rw [World.tasks, tasks]
    rfl
  rcases outcome with ⟨skipped, _, left⟩ | ⟨made, _, turns, writes⟩
  · rw [skipped, Option.toList_none, List.append_nil]
    refine inv.fewer schedules ?_ ?_
    · rw [left, head]
      exact List.sublist_cons_self _ _
    · rw [left, tail]
  · have turn := inv.turns (now, schedule) (by rw [head]; exact List.mem_cons_self)
    obtain ⟨clock, own, _⟩ := turn
    have once := inv.once
    rw [head, List.map_cons, List.nodup_cons] at once
    rw [made, Option.toList_some]
    refine ⟨?_, ?_, ?_, ?_, ?_, ?_, ?_, ?_⟩
    · show (next.db.departmentSchedules.map _).Nodup
      rw [schedules]
      exact inv.keys
    · show ∀ row ∈ next.db.departmentSchedules, _
      rw [schedules]
      exact inv.rows
    · intro c member
      rcases List.mem_append.mp member with old | new
      · exact inv.created c old
      · rw [List.mem_singleton.mp new]
        exact ⟨own, clock.le⟩
    · intro l member
      obtain ⟨c, old, same⟩ := inv.lost l member
      exact ⟨c, List.mem_append_left _ old, same⟩
    · intro c member
      show _ ∨ (∀ row ∈ next.db.departmentSchedules, _) ∨ _ ∈ advances (next.phase ()).tasks
      rw [schedules, writes, ← tail]
      rcases List.mem_append.mp member with old | new
      · rcases inv.covered c old with lost | advanced | pending
        · exact .inl lost
        · exact .inr (.inl advanced)
        · exact .inr (.inr (List.mem_cons_of_mem _ pending))
      · rw [List.mem_singleton.mp new]
        exact .inr (.inr List.mem_cons_self)
    · show ∀ i ∈ iterations (next.phase ()).tasks, _
      rw [turns]
      intro i member
      have still : i ∈ iterations w.tasks := by
        rw [head]
        exact List.mem_cons_of_mem _ member
      obtain ⟨at_, same, free⟩ := inv.turns i still
      refine ⟨at_, same, fun c made own => ?_⟩
      rcases List.mem_append.mp made with old | new
      · exact free c old own
      · -- The schedule that has just had its turn has no other one in this pass.
        rw [List.mem_singleton.mp new] at own
        exact absurd (List.mem_map.mpr ⟨i, member, own.symm⟩) once.1
    · show ((iterations (next.phase ()).tasks).map _).Nodup
      rw [turns]
      exact once.2
    · show ∀ a ∈ advances (next.phase ()).tasks, _
      rw [writes, ← tail]
      intro a member
      rcases List.mem_cons.mp member with rfl | old
      · exact ⟨_, List.mem_append_right _ (List.mem_singleton_self _), rfl, clock⟩
      · obtain ⟨c, made, same⟩ := inv.writes a old
        exact ⟨c, List.mem_append_left _ made, same⟩

/-- An advance puts its schedule behind the next occurrence of all that was created. -/
theorem Inv.advance {next : Lifecycle.World Unit} {id : String} {last until_ : ℤ}
    {rest : List Task} (inv : Inv cadence w)
    (tasks : w.tasks = .write (.schedule id last until_) :: rest)
    (left : (next.phase ()).tasks = rest)
    (rows : next.db.departmentSchedules = Table.update DepartmentSchedule.id
      w.passes.db.departmentSchedules id fun schedule =>
        { schedule with lastRunAt := some last, nextRunAt := some until_ }) :
    Inv cadence { w with passes := next } := by
  have turns : iterations w.tasks = iterations rest := by
    rw [tasks]
    rfl
  have head : advances w.tasks = (id, last, until_) :: advances rest := by
    rw [tasks]
    rfl
  obtain ⟨own, made, same, clock⟩ := inv.writes (id, last, until_) (by
    rw [head]
    exact List.mem_cons_self)
  obtain ⟨rfl, rfl, rfl⟩ : id = own.schedule.id ∧ last = own.now ∧ until_ = own.next := by
    simpa only [Prod.mk.injEq] using same
  have behind : ∀ c ∈ w.created, c.schedule.id = own.schedule.id → c.next ≤ own.next := by
    intro c member same
    unfold Occurrence.next
    rw [(inv.created c member).1, (inv.created own made).1, same, clock]
    exact nextRun_mono (inv.created c member).2 _
  refine ⟨?_, ?_, inv.created, inv.lost, ?_, ?_, ?_, ?_⟩
  · have ids : next.db.departmentSchedules.map DepartmentSchedule.id =
        w.passes.db.departmentSchedules.map DepartmentSchedule.id := by
      rw [rows]
      exact Table.keys_update fun _ => rfl
    show (next.db.departmentSchedules.map _).Nodup
    rw [ids]
    exact inv.keys
  · show ∀ row ∈ next.db.departmentSchedules, _
    rw [rows]
    intro row member
    rcases Table.mem_update member with ⟨inside, _⟩ | ⟨old, inside, _, rfl⟩
    · exact inv.rows row inside
    · exact inv.rows old inside
  · intro c member
    have advanced (stays : Advanced w.passes.db c ∨ c.schedule.id = own.schedule.id) :
        Advanced next.db c := by
      unfold Advanced
      rw [rows]
      intro row inside named at_ set
      rcases Table.mem_update inside with ⟨there, other⟩ | ⟨old, there, key, rfl⟩
      · rcases stays with before | hit
        · exact before row there named at_ set
        · exact absurd (named.trans hit) other
      · rw [← Option.some.inj set]
        exact behind c member (named.symm.trans key)
    rcases inv.covered c member with lost | before | pending
    · exact .inl lost
    · exact .inr (.inl (advanced (.inl before)))
    · rw [head] at pending
      rcases List.mem_cons.mp pending with now | later
      · have hit : c.schedule.id = own.schedule.id := congrArg Prod.fst now
        exact .inr (.inl (advanced (.inr hit)))
      · right
        right
        show _ ∈ advances (next.phase ()).tasks
        rw [left]
        exact later
  · show ∀ i ∈ iterations (next.phase ()).tasks, _
    rw [left, ← turns]
    exact inv.turns
  · show ((iterations (next.phase ()).tasks).map _).Nodup
    rw [left, ← turns]
    exact inv.once
  · show ∀ a ∈ advances (next.phase ()).tasks, _
    rw [left]
    intro a member
    apply inv.writes a
    rw [head]
    exact List.mem_cons_of_mem _ member

/-- A death loses the advances to come, and nothing else. -/
theorem Inv.die (inv : Inv cadence w) : Inv cadence
    { w with
      passes := w.passes.move () w.passes.db .idle
      lost := w.lost ++ (advances w.tasks).map fun a => (a.1, a.2.1) } := by
  have none_ : World.tasks
      { w with
        passes := w.passes.move () w.passes.db .idle
        lost := w.lost ++ (advances w.tasks).map fun a => (a.1, a.2.1) } = [] :=
    congrArg Process.tasks (move_self : (w.passes.move () w.passes.db .idle).phase () = .idle)
  refine ⟨inv.keys, inv.rows, inv.created, ?_, ?_, ?_, ?_, ?_⟩
  · intro l member
    rcases List.mem_append.mp member with old | new
    · exact inv.lost l old
    · obtain ⟨a, pending, rfl⟩ := List.mem_map.mp new
      obtain ⟨c, made, rfl, _⟩ := inv.writes a pending
      exact ⟨c, made, rfl⟩
  · intro c member
    rcases inv.covered c member with lost | advanced | pending
    · exact .inl (List.mem_append_left _ lost)
    · exact .inr (.inl advanced)
    · left
      exact List.mem_append_right _ (List.mem_map.mpr ⟨_, pending, rfl⟩)
  · rw [none_]
    intro i member
    cases member
  · rw [none_]
    exact List.nodup_nil
  · rw [none_]
    intro a member
    cases member

theorem Inv.step (inv : Inv cadence w) (step : Step str w e t) : Inv cadence t := by
  cases step with
  | tick forward taken => exact inv.tick forward taken
  | iterate taken => exact inv.iterate taken
  | commit taken =>
    rcases commit_cases taken with
      ⟨schedules, turns, writes⟩ | ⟨id, last, next, rest, tasks, left, rows⟩
    · exact inv.fewer schedules (turns ▸ .refl _) writes
    · exact inv.advance tasks left rows
  | call taken =>
    obtain ⟨schedules, tasks⟩ := call_cases taken
    exact inv.fewer schedules (by rw [tasks]; exact .refl _) (by rw [tasks]; rfl)
  | die => exact inv.die

/-- A step keeps the workflows of every schedule apart exactly when it waits for what was lost. -/
theorem Inv.spaced_step (inv : Inv cadence w) (step : Step str w e t) :
    Spaced t ↔ Spaced w ∧ Waits w e := by
  cases step with
  | tick => exact (and_iff_left trivial).symm
  | commit => exact (and_iff_left trivial).symm
  | call => exact (and_iff_left trivial).symm
  | die => exact (and_iff_left trivial).symm
  | @iterate workflowId createdAt next taken =>
    obtain ⟨_, now, schedule, rest, tasks, outcome⟩ := iterate_cases taken
    dsimp only [Spaced, Waits]
    rcases outcome with ⟨skipped, _⟩ | ⟨made, _⟩
    · rw [skipped, Option.toList_none, List.append_nil]
      refine (and_iff_left ?_).symm
      intro c none_
      cases none_
    · have turn : (now, schedule) ∈ iterations w.tasks := by
        rw [World.tasks, tasks]
        exact List.mem_cons_self
      obtain ⟨clock, own, free⟩ := inv.turns _ turn
      have cadences : ∀ first ∈ w.created, first.schedule.id = schedule.id →
          first.schedule.cadence = schedule.cadence := by
        intro first before named
        rw [(inv.created first before).1, own]
        exact congrArg cadence named
      rw [made, Option.toList_some, List.pairwise_append]
      constructor
      · rintro ⟨spaced, _, apart⟩
        refine ⟨spaced, fun c new l gone named => ?_⟩
        obtain rfl := Option.some.inj new
        obtain ⟨first, before, rfl⟩ := inv.lost l gone
        have due := apart first before _ (List.mem_singleton_self _) named
        rw [← cadences first before named]
        exact due
      · rintro ⟨spaced, waits⟩
        refine ⟨spaced, List.pairwise_singleton _ _, fun first before c new named => ?_⟩
        rw [List.mem_singleton.mp new] at named ⊢
        rcases free first before named with gone | due
        · unfold Occurrence.next
          rw [cadences first before named]
          exact waits _ rfl _ gone named
        · exact due.trans clock.ge

/-- The passes have not begun. -/
structure Initial (w : World) : Prop where
  keys : (w.passes.db.departmentSchedules.map DepartmentSchedule.id).Nodup
  idle : (w.passes.phase ()).tasks = []
  created : w.created = []
  lost : w.lost = []

theorem inv_initial (initial : Initial w) : ∃ cadence, Inv cadence w := by
  obtain ⟨keys, idle, created, lost⟩ := initial
  have none_ : w.tasks = [] := idle
  refine ⟨fun id => ((Table.get DepartmentSchedule.id w.passes.db.departmentSchedules id).map
    DepartmentSchedule.cadence).getD "", keys, ?_, ?_, ?_, ?_, ?_, ?_, ?_⟩
  · intro row member
    rw [Table.get_of_mem keys member]
    rfl
  · simp [created]
  · simp [lost]
  · simp [created]
  · simp [none_, iterations]
  · simp [none_, iterations]
  · simp [none_, advances]

end Invariant

/-- After a run of passes that may die at any commit, two workflows for one schedule come from
passes a cadence period apart exactly when no pass took a turn for a schedule too soon after it was
left behind with its workflow committed. -/
theorem spaced_iff {str : Value → String} {start w : World} {es : List Event}
    (initial : Initial start) (run : Run (Step str) start es w) :
    Spaced w ↔ Run (Guarded Waits (Step str)) start es w := by
  obtain ⟨cadence, inv⟩ := inv_initial initial
  have empty : Spaced start := by
    unfold Spaced
    rw [initial.created]
    exact .nil
  have keep : ∀ s e t, Inv cadence s → Step str s e t → Inv cadence t :=
    fun s e t inv step => inv.step step
  have exactly : ∀ s e t, Inv cadence s → Step str s e t → (Spaced t ↔ Spaced s ∧ Waits s e) :=
    fun s e t inv step => inv.spaced_step step
  exact (run.exactly_guarded keep exactly inv).trans (and_iff_right empty)

/-- No pass dies with the advance of a schedule to come whose workflow is committed. -/
def DiesClean (w : World) : Event → Prop
  | .die => advances w.tasks = []
  | _ => True

/-- Deaths anywhere else cost no occurrence its one workflow. -/
theorem spaced_of_dies_clean {str : Value → String} {start w : World} {es : List Event}
    (initial : Initial start) (run : Run (Guarded DiesClean (Step str)) start es w) : Spaced w := by
  obtain ⟨cadence, inv⟩ := inv_initial initial
  have empty : Spaced start := by
    unfold Spaced
    rw [initial.created]
    exact .nil
  have keep : ∀ s e t, Inv cadence s ∧ s.lost = [] ∧ Spaced s →
      Guarded DiesClean (Step str) s e t → Inv cadence t ∧ t.lost = [] ∧ Spaced t := by
    rintro s e t ⟨inv, lost, spaced⟩ ⟨clean, step⟩
    have waits : Waits s e := by
      cases e with
      | iterate workflowId createdAt =>
        intro c _ l gone
        rw [lost] at gone
        cases gone
      | _ => trivial
    refine ⟨inv.step step, ?_, (inv.spaced_step step).mpr ⟨spaced, waits⟩⟩
    cases step with
    | die =>
      have none_ : advances s.tasks = [] := clean
      rw [lost, none_]
      rfl
    | _ => exact lost
  exact (run.invariant keep ⟨inv, initial.lost, empty⟩).2.2

section Sample

def sampleText : Value → String := fun _ => ""

def sampleSchedule : DepartmentSchedule :=
  ⟨"s", "d", "Hourly review", "hourly", "department_operation", .object [], true, some 0, none⟩

def samplePasses : Lifecycle.World Unit where
  db :=
    { toDatabase := .empty
      departments := [⟨"d", "Content", "content", .active, 1, .object [], .null⟩]
      agentInstances := []
      departmentSchedules := [sampleSchedule] }
  phase := fun _ => .idle

def sampleStart : World := ⟨samplePasses, 0, [], []⟩

theorem sampleStart_initial : Initial sampleStart := ⟨by decide, rfl, rfl, rfl⟩

def after (s : Lifecycle.World Unit) (e : Lifecycle.Event Unit) : Lifecycle.World Unit :=
  (Lifecycle.step sampleText s e).getD s

/-- The first pass commits the workflow and dies; the schedule is still due a minute later. -/
def firstTurn : Lifecycle.World Unit := after (after samplePasses (.tick () 0)) (.iterate () "w1" 0)

def died : Lifecycle.World Unit := firstTurn.move () firstTurn.db .idle

def secondTurn : Lifecycle.World Unit :=
  after (after died (.tick () 60000000)) (.iterate () "w2" 60000000)

def sampleEvents : List Event :=
  [.tick 0, .iterate "w1" 0, .die, .tick 60000000, .iterate "w2" 60000000]

def sampleEnd : World :=
  ⟨secondTurn, 60000000, [⟨sampleSchedule, "w1", 0⟩, ⟨sampleSchedule, "w2", 60000000⟩], [("s", 0)]⟩

theorem sample_run : Run (Step sampleText) sampleStart sampleEvents sampleEnd := by
  have tick : Step sampleText sampleStart (.tick 0)
      ⟨after samplePasses (.tick () 0), 0, [], []⟩ := .tick le_rfl rfl
  have turn : Step sampleText ⟨after samplePasses (.tick () 0), 0, [], []⟩ (.iterate "w1" 0)
      ⟨firstTurn, 0, [⟨sampleSchedule, "w1", 0⟩], []⟩ := .iterate rfl
  have death : Step sampleText ⟨firstTurn, 0, [⟨sampleSchedule, "w1", 0⟩], []⟩ .die
      ⟨died, 0, [⟨sampleSchedule, "w1", 0⟩], [("s", 0)]⟩ := .die
  have again : Step sampleText ⟨died, 0, [⟨sampleSchedule, "w1", 0⟩], [("s", 0)]⟩ (.tick 60000000)
      ⟨after died (.tick () 60000000), 60000000, [⟨sampleSchedule, "w1", 0⟩], [("s", 0)]⟩ :=
    .tick (by decide) rfl
  have second : Step sampleText
      ⟨after died (.tick () 60000000), 60000000, [⟨sampleSchedule, "w1", 0⟩], [("s", 0)]⟩
      (.iterate "w2" 60000000) sampleEnd := .iterate rfl
  exact .cons tick (.cons turn (.cons death (.cons again (.single second))))

theorem spaced_iff_sample :
    Spaced sampleEnd ↔ Run (Guarded Waits (Step sampleText)) sampleStart sampleEvents sampleEnd :=
  spaced_iff sampleStart_initial sample_run

/-- Two workflows for the same hour. -/
theorem occurrence_repeated : ¬ ∀ (start w : World) (es : List Event), Initial start →
    Run (Step sampleText) start es w → Spaced w := by
  intro law
  have spaced := law _ _ _ sampleStart_initial sample_run
  have apart := (List.pairwise_cons.mp spaced).1 _ (List.mem_singleton_self _) rfl
  exact absurd apart (by decide)

end Sample

end BusinessOs.App.ScheduleOccurrences
