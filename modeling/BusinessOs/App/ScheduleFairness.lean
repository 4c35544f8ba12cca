/- Source: app/services/scheduler.py (process_due_department_schedules, _next_run),
     app/worker.py
   digest: Passes that run at most ten schedules each, earliest first, and how many of them a due
     schedule waits, whatever the other sessions do and however often the scheduler dies. -/

import BusinessOs.App.ScheduleTurns

set_option autoImplicit false
set_option relaxedAutoImplicit false

namespace BusinessOs.App.ScheduleFairness

open BusinessOs.Lib BusinessOs.Lib.Execution BusinessOs.Lib.Interleaving BusinessOs.Lib.Json.Tree
open BusinessOs.App.Models BusinessOs.App.Workflows BusinessOs.App.Company
open BusinessOs.App.Sessions BusinessOs.App.DepartmentAgent
open BusinessOs.App.Lifecycle (World Process Task dueSchedules nextRun kill pause insertWorkflow
  scheduledCreation Unused)
open BusinessOs.App.LifecycleCommits BusinessOs.App.LifecycleLaws
open BusinessOs.App.KilledDepartments (setStatus_statusOf)
open BusinessOs.App.ScheduleOccurrences (iterations advances iterations_due advances_due)
open BusinessOs.App.ScheduleTurns

/-- What the sessions do. Launches of departments, which add schedules, are left out. -/
inductive Event (P : Type)
  | session (e : Lifecycle.Event P)
  /-- The process of a session dies, between two of its commits. -/
  | die (p : P)

section Labels

variable {P : Type} [DecidableEq P]

def step (str : Value → String) (s : World P) : Event P → Option (World P)
  | .session e => Lifecycle.step str s e
  | .die p => some (s.move p s.db .idle)

/-- The process `p` begins a pass. -/
def Event.ticks (p : P) : Event P → Bool
  | .session (.tick q _) => q == p
  | _ => false

def Event.kills (p : P) : Event P → Bool
  | .die q => q == p
  | _ => false

/-- The process `p` runs every pass, and none before the time `d`. -/
def RunsPasses (p : P) (d : ℤ) (es : List (Event P)) : Prop :=
  ∀ q now, .session (.tick q now) ∈ es → q = p ∧ d ≤ now

/-- Nobody pauses or kills the department. -/
def Spared (departmentId : String) (es : List (Event P)) : Prop :=
  ∀ q, .session (.pause q departmentId) ∉ es ∧ .session (.kill q departmentId) ∉ es

end Labels

/-- A schedule of an active department that is due at the time `d`. -/
def contends (d : ℤ) (db : CompanyDatabase) (schedule : DepartmentSchedule) : Bool :=
  schedule.enabled && schedule.nextRunAt.any (fun next => decide (next ≤ d)) &&
    decide (statusOf db schedule.departmentId = some .active)

/-- The other schedules that are due at the time `d`. -/
def ahead (d : ℤ) (db : CompanyDatabase) (id : String) : ℕ :=
  db.departmentSchedules.countP fun other => other.id != id && contends d db other

/-- Those of them that a pass has not taken up. -/
def untaken (taken : List String) (d : ℤ) (db : CompanyDatabase) (id : String) : ℕ :=
  db.departmentSchedules.countP fun other =>
    !taken.contains other.id && (other.id != id && contends d db other)

/-- A workflow of the schedule that is not among the known ones. -/
def Served (known : List String) (id : String) (db : CompanyDatabase) : Prop :=
  ∃ workflow ∈ db.workflows, workflow.id ∉ known ∧ workflow.source = "schedule:" ++ id

/-- The schedules that a pass has still to run or to advance. -/
def inHand (tasks : List Task) : List String :=
  (iterations tasks).map (fun i => i.2.id) ++ (advances tasks).map Prod.fst

section Rows

variable {P : Type} {str : Value → String} {s : World P} {e : Lifecycle.Event P}
  {db next : CompanyDatabase} {d : ℤ} {id : String}

/-- A department changes its status by a pause or a kill of its own, and stops being active. -/
theorem change_status (change : Change str s e db) (id : String) :
    statusOf db id = statusOf s.db id ∨
      (∃ q, e = .pause q id ∨ e = .kill q id) ∧
        ∃ status ≠ .active, statusOf db id = (statusOf s.db id).map fun _ => status := by
  have set_ : ∀ (status : DepartmentStatus) (own : String) (rows : List Department),
      (Table.get Department.id (Table.update Department.id rows own fun department =>
        { department with status }) id).map Department.status =
      if id = own then ((Table.get Department.id rows id).map Department.status).map
        fun _ => status else (Table.get Department.id rows id).map Department.status := by
    intro status own rows
    rw [setStatus_statusOf, Option.map_map]
    rfl
  cases change with
  | @pause p own =>
    by_cases same : id = own
    · subst same
      refine .inr ⟨⟨p, .inl rfl⟩, .paused, by decide, (set_ .paused id _).trans (if_pos rfl)⟩
    · exact .inl ((set_ .paused own _).trans (if_neg same))
  | @kill p own department found =>
    by_cases same : id = own
    · subst same
      refine .inr ⟨⟨p, .inr rfl⟩, .killed, by decide, (set_ .killed id _).trans (if_pos rfl)⟩
    · exact .inl ((set_ .killed own _).trans (if_neg same))
  | read => exact .inl rfl
  | insert unused => exact .inl rfl
  | write write => cases write <;> exact .inl rfl
  | commit owns spares => exact .inl (owns.advance.1.departments id)

/-- No program changes which workflows there are, or where they come from. -/
theorem execute_sources (session : Session) (program : List Statement) :
    (execute session program).db.workflows.map (fun row => (row.id, row.source)) =
      session.db.workflows.map fun row => (row.id, row.source) := by
  induction program generalizing session with
  | nil => rfl
  | cons first rest ih =>
    refine (ih (first.run session)).trans ?_
    cases first with
    | commit => exact Table.map_update _ fun _ => rfl
    | _ => rfl

theorem change_sources (change : Change str s e db) :
    s.db.workflows.map (fun row => (row.id, row.source)) <+:
      db.workflows.map fun row => (row.id, row.source) := by
  cases change with
  | insert unused =>
    show _ <+: (s.db.workflows ++ _).map _
    rw [List.map_append]
    exact List.prefix_append _ _
  | write write => cases write <;> exact List.prefix_refl _
  | @commit _ call owns spares =>
    simp [Lifecycle.Call.advance, execute_sources]
  | _ => exact List.prefix_refl _

/-- A workflow of a schedule stays. -/
theorem Served.mono {known : List String} (served : Served known id db)
    (kept : db.workflows.map (fun row => (row.id, row.source)) <+:
      next.workflows.map fun row => (row.id, row.source)) : Served known id next := by
  obtain ⟨workflow, inside, new, source⟩ := served
  have pair : (workflow.id, workflow.source) ∈ next.workflows.map fun row => (row.id, row.source) :=
    kept.subset (List.mem_map_of_mem inside)
  obtain ⟨row, member, same⟩ := List.mem_map.mp pair
  obtain ⟨own, origin⟩ := Prod.mk.inj same
  exact ⟨row, member, own ▸ new, origin.trans source⟩

/-- Rows that change one by one, so that nobody contends who did not. -/
theorem untaken_le {taken later : List String} {f : DepartmentSchedule → DepartmentSchedule}
    (rows : next.departmentSchedules = db.departmentSchedules.map f)
    (keeps : ∀ row, (f row).id = row.id)
    (each : ∀ row ∈ db.departmentSchedules, row.id ≠ id → row.id ∉ later →
      contends d next (f row) = true → row.id ∉ taken ∧ contends d db row = true) :
    untaken later d next id ≤ untaken taken d db id := by
  unfold untaken
  rw [rows, List.countP_map]
  apply List.countP_mono_left
  intro row member counted
  simp only [Function.comp_apply, keeps, Bool.and_eq_true, Bool.not_eq_true', bne_iff_ne,
    List.contains_eq_mem, decide_eq_false_iff_not] at counted ⊢
  obtain ⟨free, other, due⟩ := counted
  obtain ⟨open_, was⟩ := each row member other free due
  exact ⟨open_, other, was⟩

theorem untaken_nil : untaken [] d db id = ahead d db id := by
  unfold untaken ahead
  simp only [List.contains_nil, Bool.not_false, Bool.true_and]

theorem nextRun_later (now : ℤ) (cadence : String) : now < nextRun now cadence := by
  unfold nextRun
  dsimp only
  split_ifs <;> omega

theorem dueSchedules_eq (now : ℤ) (db : CompanyDatabase) :
    dueSchedules now db = Batches.batch (fun schedule => schedule.nextRunAt.getD 0) 10
      (db.departmentSchedules.filter (contends now db)) := by
  unfold dueSchedules Batches.batch
  congr 2
  apply List.filter_congr
  intro row _
  unfold contends statusOf
  cases db.department row.departmentId <;> simp

end Rows

/-- The sessions' laws, with one process that runs the passes. -/
structure Lone {P : Type} (p : P) (s : World P) : Prop where
  laws : Inv s
  keys : (s.db.departmentSchedules.map DepartmentSchedule.id).Nodup
  others : ∀ q, q ≠ p →
    iterations (s.phase q).tasks = [] ∧ advances (s.phase q).tasks = []

/-- What a run keeps until the schedule `row` is served, over `k` passes and `j` deaths. -/
structure Waits {P : Type} (p : P) (row : DepartmentSchedule) (d : ℤ) (known : List String)
    (bound k j : ℕ) (s : World P) : Prop where
  lone : Lone p s
  known : ∀ id ∈ known, id ∈ s.db.workflows.map Workflow.id
  listed : row ∈ s.db.departmentSchedules
  active : statusOf s.db row.departmentId = some .active
  turns : ∀ i ∈ iterations (s.phase p).tasks, d ≤ i.1 ∧ (i.2.id = row.id → i.2 = row) ∧
    s.db.department i.2.departmentId ≠ none
  owed : ∀ a ∈ advances (s.phase p).tasks, a.1 ≠ row.id ∧ d < a.2.2
  /-- The pass that is under way may yet be lost. -/
  total : ahead d s.db row.id + 10 * k ≤ bound + 10 * (j + 1)
  /-- A pass without the schedule takes ten others away. -/
  left : row.id ∉ (iterations (s.phase p).tasks).map (fun i => i.2.id) →
    untaken (inHand (s.phase p).tasks) d s.db row.id + 10 * k ≤ bound + 10 * j

section Step

variable {P : Type} [DecidableEq P] {str : Value → String} {s t : World P} {p : P}
  {row : DepartmentSchedule} {d : ℤ} {known : List String} {bound k j : ℕ}

/-- What every step of a session keeps while the department is spared. -/
structure Kept (row : DepartmentSchedule) (s t : World P) : Prop where
  sources : s.db.workflows.map (fun row => (row.id, row.source)) <+:
    t.db.workflows.map fun row => (row.id, row.source)
  active : statusOf s.db row.departmentId = some .active →
    statusOf t.db row.departmentId = some .active
  revive : ∀ id, statusOf t.db id = some .active → statusOf s.db id = some .active
  present : ∀ id, s.db.department id ≠ none → t.db.department id ≠ none

theorem kept_of_step {e : Lifecycle.Event P} (inv : Inv s)
    (taken : Lifecycle.step str s e = some t)
    (spared : ∀ q, e ≠ .pause q row.departmentId ∧ e ≠ .kill q row.departmentId) :
    Kept row s t := by
  obtain ⟨q, db, process, rfl, change, lawful⟩ := step_change inv taken
  refine ⟨change_sources change, ?_, ?_, ?_⟩
  · intro active
    rcases change_status change row.departmentId with same | ⟨⟨q, paused | killed⟩, _⟩
    · exact same.trans active
    · exact absurd paused (spared q).1
    · exact absurd killed (spared q).2
  · intro id active
    rcases change_status change id with same | ⟨_, status, other, set_⟩
    · exact same.symm.trans active
    · change statusOf db id = _ at active
      rw [set_] at active
      obtain ⟨_, _, same⟩ := Option.map_eq_some_iff.mp active
      exact absurd same other
  · intro id present gone
    have missing : statusOf db id = none := by
      unfold statusOf
      rw [Option.map_eq_none_iff]
      exact gone
    apply present
    rcases change_status change id with same | ⟨_, status, _, set_⟩
    · exact Option.map_eq_none_iff.mp (same.symm.trans missing)
    · exact Option.map_eq_none_iff.mp (Option.map_eq_none_iff.mp (set_.symm.trans missing))

omit [DecidableEq P] in
/-- Nobody contends behind a step who did not, unless its own row has changed. -/
theorem Kept.contends (kept : Kept row s t) {old new : DepartmentSchedule}
    (same : new = old ∨ new.enabled = false)
    (due : contends d t.db new = true) : contends d s.db old = true := by
  unfold ScheduleFairness.contends at due ⊢
  simp only [Bool.and_eq_true, decide_eq_true_eq] at due ⊢
  rcases same with rfl | off
  · exact ⟨due.1, kept.revive _ due.2⟩
  · rw [off] at due
    exact absurd due.1.1 (by decide)

omit [DecidableEq P] in
theorem known_kept (waits : Waits p row d known bound k j s) (kept : Kept row s t) :
    ∀ id ∈ known, id ∈ t.db.workflows.map Workflow.id := by
  intro id member
  obtain ⟨workflow, inside, rfl⟩ := List.mem_map.mp (waits.known id member)
  have pair : (workflow.id, workflow.source) ∈ t.db.workflows.map fun row => (row.id, row.source) :=
    kept.sources.subset (List.mem_map_of_mem inside)
  obtain ⟨later, there, same⟩ := List.mem_map.mp pair
  exact List.mem_map.mpr ⟨later, there, (Prod.mk.inj same).1⟩

omit [DecidableEq P] in
/-- A step that takes no turn and advances nothing. -/
theorem Waits.quiet (waits : Waits p row d known bound k j s) (lone : Lone p t)
    (kept : Kept row s t) {f : DepartmentSchedule → DepartmentSchedule}
    (rows : t.db.departmentSchedules = s.db.departmentSchedules.map f)
    (keeps : ∀ row, (f row).id = row.id) (own : f row = row)
    (each : ∀ row, f row = row ∨ (f row).enabled = false)
    (tasks : iterations (t.phase p).tasks = iterations (s.phase p).tasks ∧
      advances (t.phase p).tasks = advances (s.phase p).tasks) :
    Waits p row d known bound k j t := by
  have fewer : ∀ taken, untaken taken d t.db row.id ≤ untaken taken d s.db row.id := by
    intro taken
    apply untaken_le rows keeps
    intro other _ _ free due
    exact ⟨free, kept.contends (each other) due⟩
  have hand : inHand (t.phase p).tasks = inHand (s.phase p).tasks := by
    unfold inHand
    rw [tasks.1, tasks.2]
  refine ⟨lone, known_kept waits kept, ?_, kept.active waits.active, ?_, ?_, ?_, ?_⟩
  · rw [rows]
    exact List.mem_map.mpr ⟨row, waits.listed, own⟩
  · rw [tasks.1]
    intro i member
    obtain ⟨due, same, present⟩ := waits.turns i member
    exact ⟨due, same, kept.present _ present⟩
  · rw [tasks.2]
    exact waits.owed
  · have less := fewer []
    rw [untaken_nil, untaken_nil] at less
    have total := waits.total
    omega
  · rw [tasks.1, hand]
    intro passed
    have left := waits.left passed
    have less := fewer (inHand (s.phase p).tasks)
    omega

/-- Where only the phase of one party changes, the turns of all stay if that party's do. -/
theorem tasks_move {q : P} {db : CompanyDatabase} {process : Process}
    (left : iterations process.tasks = iterations (s.phase q).tasks)
    (owed : advances process.tasks = advances (s.phase q).tasks) (r : P) :
    iterations ((s.move q db process).phase r).tasks = iterations (s.phase r).tasks ∧
      advances ((s.move q db process).phase r).tasks = advances (s.phase r).tasks := by
  by_cases own : r = q
  · rw [own, move_self]
    exact ⟨left, owed⟩
  · rw [move_of_ne own]
    exact ⟨rfl, rfl⟩

omit [DecidableEq P] in
/-- The query of a pass that misses the schedule is full of others that are due no later. -/
theorem untaken_tick (waits : Waits p row d known bound k j s) {now : ℤ} (come : d ≤ now)
    (enabled : row.enabled = true) (due : row.nextRunAt = some d)
    (missed : row.id ∉ (dueSchedules now s.db).map DepartmentSchedule.id) :
    untaken ((dueSchedules now s.db).map DepartmentSchedule.id) d s.db row.id + 10 ≤
      ahead d s.db row.id := by
  have ready : contends now s.db row = true := by
    simp [contends, enabled, due, come, waits.active]
  have selected : row ∈ s.db.departmentSchedules.filter (contends now s.db) :=
    List.mem_filter.mpr ⟨waits.listed, ready⟩
  have out : row ∉ dueSchedules now s.db := fun inside => missed (List.mem_map_of_mem inside)
  have nodup : (dueSchedules now s.db).Nodup :=
    (ScheduleOccurrences.dueSchedules_nodup waits.lone.keys).of_map
  rw [dueSchedules_eq] at out
  obtain ⟨full, earlier⟩ := Batches.full_of_missed selected out
  rw [← dueSchedules_eq] at full earlier
  conv_lhs => rw [← full]
  apply Batches.countP_add_length_le nodup
  · intro other inside
    have member := inside
    rw [dueSchedules_eq] at member
    obtain ⟨listed, ready⟩ := List.mem_filter.mp (Batches.mem_of_mem_batch member)
    have time := earlier other inside
    have apart : other.id ≠ row.id := fun same => missed (same ▸ List.mem_map_of_mem inside)
    refine ⟨listed, ?_, ?_⟩
    · unfold contends at ready ⊢
      simp only [Bool.and_eq_true, Option.any_eq_true, decide_eq_true_eq, bne_iff_ne] at ready ⊢
      obtain ⟨⟨on, next, set_, _⟩, active⟩ := ready
      rw [due, set_] at time
      exact ⟨apart, ⟨on, next, set_, time⟩, active⟩
    · have taken : ((dueSchedules now s.db).map DepartmentSchedule.id).contains other.id = true :=
        List.contains_iff_mem.mpr (List.mem_map_of_mem inside)
      rw [taken]
      rfl
  · intro other _ counted
    exact (Bool.and_eq_true _ _ ▸ counted).2

theorem Waits.tick (waits : Waits p row d known bound k j s) {now : ℤ} {process : Process}
    (lone : Lone p (s.move p s.db process)) (come : d ≤ now) (enabled : row.enabled = true)
    (due : row.nextRunAt = some d) (free : (s.phase p).tasks = [])
    (tasks : process.tasks = (dueSchedules now s.db).map (Task.iteration now)) :
    Waits p row d known bound (k + 1) j (s.move p s.db process) := by
  have before := waits.left (by rw [free]; exact List.not_mem_nil)
  have empty : inHand ([] : List Task) = [] := rfl
  rw [free, empty, untaken_nil] at before
  have turns : (iterations process.tasks).map (fun i => i.2.id) =
      (dueSchedules now s.db).map DepartmentSchedule.id := by
    rw [tasks, iterations_due, List.map_map]
    rfl
  refine ⟨lone, waits.known, waits.listed, waits.active, ?_, ?_, ?_, ?_⟩
  · rw [move_self, tasks, iterations_due]
    intro i member
    obtain ⟨schedule, selected, rfl⟩ := List.mem_map.mp member
    rw [dueSchedules_eq] at selected
    obtain ⟨listed, ready⟩ := List.mem_filter.mp (Batches.mem_of_mem_batch selected)
    refine ⟨come, List.inj_on_of_nodup_map waits.lone.keys listed waits.listed, ?_⟩
    intro gone
    have none_ : s.db.department schedule.departmentId = none := gone
    unfold contends statusOf at ready
    rw [none_] at ready
    simp at ready
  · rw [move_self, tasks, advances_due]
    intro a member
    cases member
  · show ahead d s.db row.id + _ ≤ _
    omega
  · rw [move_self, turns]
    intro missed
    have hand : inHand process.tasks = (dueSchedules now s.db).map DepartmentSchedule.id := by
      unfold inHand
      rw [turns, tasks, advances_due, List.map_nil, List.append_nil]
    have fewer := untaken_tick waits come enabled due missed
    rw [hand]
    show untaken _ d s.db row.id + _ ≤ _
    omega

/-- A turn serves the schedule, or takes up another one. -/
theorem Waits.take (waits : Waits p row d known bound k j s) {id : String} {createdAt now : ℤ}
    {schedule : DepartmentSchedule} {rest : List Task} {copy : DepartmentCopy} {process : Process}
    (lone : Lone p (s.move p
      (insertWorkflow s.db (scheduledCreation schedule copy id createdAt)) process))
    (turn : (s.phase p).tasks = .iteration now schedule :: rest) (unused : Unused s.db id)
    (left : iterations process.tasks = iterations rest)
    (owed : advances process.tasks =
      (schedule.id, now, nextRun now schedule.cadence) :: advances rest) :
    Served known row.id (insertWorkflow s.db (scheduledCreation schedule copy id createdAt)) ∨
      Waits p row d known bound k j (s.move p
        (insertWorkflow s.db (scheduledCreation schedule copy id createdAt)) process) := by
  have head : iterations (s.phase p).tasks = (now, schedule) :: iterations rest := by
    rw [turn]
    rfl
  have tail : advances (s.phase p).tasks = advances rest := by
    rw [turn]
    rfl
  by_cases own : schedule.id = row.id
  · left
    refine ⟨(scheduledCreation schedule copy id createdAt).row, ?_, ?_, ?_⟩
    · exact List.mem_append_right _ List.mem_cons_self
    · exact fun member => unused.1 (waits.known id member)
    · show "schedule:" ++ schedule.id = _
      rw [own]
  · right
    have come : d ≤ now := (waits.turns (now, schedule) (by rw [head]; exact List.mem_cons_self)).1
    refine ⟨lone, ?_, waits.listed, waits.active, ?_, ?_, waits.total, ?_⟩
    · intro id member
      show id ∈ (s.db.workflows ++ _).map Workflow.id
      rw [List.map_append]
      exact List.mem_append_left _ (waits.known id member)
    · rw [move_self, left]
      intro i member
      exact waits.turns i (by rw [head]; exact List.mem_cons_of_mem _ member)
    · rw [move_self, owed]
      intro a member
      rcases List.mem_cons.mp member with rfl | old
      · exact ⟨own, come.trans_lt (nextRun_later now schedule.cadence)⟩
      · exact waits.owed a (by rw [tail]; exact old)
    · rw [move_self, left]
      intro missed
      have before := waits.left (by
        rw [head, List.map_cons, List.mem_cons, not_or]
        exact ⟨fun same => own same.symm, missed⟩)
      have fewer : untaken (inHand process.tasks) d
          (insertWorkflow s.db (scheduledCreation schedule copy id createdAt)) row.id ≤
          untaken (inHand (s.phase p).tasks) d s.db row.id := by
        refine untaken_le (f := fun row => row) (List.map_id _).symm (fun _ => rfl) ?_
        intro other _ _ free due
        refine ⟨fun taken => free ?_, due⟩
        unfold inHand at taken ⊢
        rw [head, tail] at taken
        rw [left, owed]
        simp only [List.map_cons, List.cons_append, List.mem_cons, List.mem_append] at taken ⊢
        tauto
      exact (Nat.add_le_add_right fewer _).trans before

/-- A schedule that is advanced does not contend. -/
theorem Waits.advance (waits : Waits p row d known bound k j s) {id : String} {last next : ℤ}
    {rest : List Task} {process : Process}
    (lone : Lone p (s.move p ((Lifecycle.Write.schedule id last next).apply s.db) process))
    (turn : (s.phase p).tasks = .write (.schedule id last next) :: rest)
    (tasks : process.tasks = rest) :
    Waits p row d known bound k j
      (s.move p ((Lifecycle.Write.schedule id last next).apply s.db) process) := by
  have head : advances (s.phase p).tasks = (id, last, next) :: advances process.tasks := by
    rw [turn, tasks]
    rfl
  have same : iterations (s.phase p).tasks = iterations process.tasks := by
    rw [turn, tasks]
    rfl
  obtain ⟨other, later⟩ := waits.owed (id, last, next) (by rw [head]; exact List.mem_cons_self)
  have fewer : ∀ taken gone, (∀ a ∈ taken, a = id ∨ a ∈ gone) →
      untaken gone d ((Lifecycle.Write.schedule id last next).apply s.db) row.id ≤
        untaken taken d s.db row.id := by
    intro taken gone within
    refine untaken_le rfl ?_ ?_
    · intro r
      by_cases hit : r.id = id <;> simp [hit]
    · intro r _ _ free due
      by_cases hit : r.id = id
      · rw [if_pos hit] at due
        unfold contends at due
        simp only [Option.any_some, Bool.and_eq_true, decide_eq_true_eq] at due
        exact absurd due.1.2 (not_le.mpr later)
      · rw [if_neg hit] at due
        exact ⟨fun taken_ => (within _ taken_).elim hit free, due⟩
  refine ⟨lone, waits.known, ?_, waits.active, ?_, ?_, ?_, ?_⟩
  · refine List.mem_map.mpr ⟨row, waits.listed, if_neg fun hit => other hit.symm⟩
  · rw [move_self, ← same]
    exact waits.turns
  · rw [move_self]
    exact fun a member => waits.owed a (by rw [head]; exact List.mem_cons_of_mem _ member)
  · have less := fewer [] [] (by simp)
    rw [untaken_nil, untaken_nil] at less
    exact (Nat.add_le_add_right less _).trans waits.total
  · rw [move_self, ← same]
    intro missed
    have before := waits.left missed
    have less := fewer (inHand (s.phase p).tasks) (inHand process.tasks) (by
      unfold inHand
      rw [head, same]
      intro a member
      simp only [List.map_cons, List.mem_append, List.mem_cons] at member ⊢
      tauto)
    exact (Nat.add_le_add_right less _).trans before

/-- A death costs at most the pass that is under way. -/
theorem Waits.die (waits : Waits p row d known bound k j s) (q : P)
    (lone : Lone p (s.move q s.db .idle)) :
    Waits p row d known bound k (j + if q = p then 1 else 0) (s.move q s.db .idle) := by
  have total := waits.total
  by_cases own : q = p
  · subst own
    rw [if_pos rfl]
    refine ⟨lone, waits.known, waits.listed, waits.active, ?_, ?_, ?_, ?_⟩
    · rw [move_self]
      intro i member
      cases member
    · rw [move_self]
      intro a member
      cases member
    · show ahead d s.db row.id + _ ≤ _
      omega
    · rw [move_self]
      intro _
      show untaken [] d s.db row.id + _ ≤ _
      rw [untaken_nil]
      exact total
  · rw [if_neg own]
    have still : (s.move q s.db .idle).phase p = s.phase p := move_of_ne fun same => own same.symm
    refine ⟨lone, waits.known, waits.listed, waits.active, ?_, ?_, total, ?_⟩
    · rw [still]
      exact waits.turns
    · rw [still]
      exact waits.owed
    · rw [still]
      exact waits.left

omit [DecidableEq P] in
/-- Only the process that runs the passes has turns and advances to make. -/
theorem Lone.own (lone : Lone p s) {q : P}
    (some_ : iterations (s.phase q).tasks ≠ [] ∨ advances (s.phase q).tasks ≠ []) : q = p := by
  by_contra other
  rcases some_ with turns | owed
  · exact turns (lone.others q other).1
  · exact owed (lone.others q other).2

omit [DecidableEq P] in
theorem iteration_own (lone : Lone p s) {q : P} {now : ℤ} {schedule : DepartmentSchedule}
    {rest : List Task} (turn : (s.phase q).tasks = .iteration now schedule :: rest) : q = p :=
  lone.own (.inl (by rw [turn]; exact List.cons_ne_nil _ _))

omit [DecidableEq P] in
theorem advance_own (lone : Lone p s) {q : P} {id : String} {last next : ℤ} {rest : List Task}
    (turn : (s.phase q).tasks = .write (.schedule id last next) :: rest) : q = p :=
  lone.own (.inr (by rw [turn]; exact List.cons_ne_nil _ _))

/-- The process that runs the passes may move as it likes. -/
theorem Lone.move {db : CompanyDatabase} {process : Process} (lone : Lone p s)
    (laws : Inv (s.move p db process))
    (keys : (db.departmentSchedules.map DepartmentSchedule.id).Nodup) :
    Lone p (s.move p db process) := by
  refine ⟨laws, keys, fun r other => ?_⟩
  rw [move_of_ne other]
  exact lone.others r other

/-- A step without a pass of another process keeps the one process that runs them. -/
theorem Lone.step {e : Event P} (lone : Lone p s) (taken : step str s e = some t)
    (passes : ∀ q now, e = .session (.tick q now) → q = p) : Lone p t := by
  cases e with
  | die q =>
    obtain rfl := Option.some.inj taken
    refine ⟨⟨lone.laws.workflows, lone.laws.agents, ?_⟩, lone.keys, ?_⟩
    · exact forall_move (lawful_tasks fun _ _ member => by cases member) fun r _ =>
        lone.laws.lawful r
    · intro r other
      by_cases dead : r = q
      · rw [dead, move_self]
        exact ⟨rfl, rfl⟩
      · rw [move_of_ne dead]
        exact lone.others r other
  | session e =>
    have laws : Inv t := inv_step lone.laws taken
    cases pace taken with
    | @tick q now process free tasks =>
      obtain rfl := passes q now rfl
      exact lone.move laws lone.keys
    | skip turn gone tasks =>
      obtain rfl := iteration_own lone turn
      exact lone.move laws lone.keys
    | take turn unused left owed =>
      obtain rfl := iteration_own lone turn
      exact lone.move laws lone.keys
    | @advance q id last next rest process turn tasks =>
      obtain rfl := advance_own lone turn
      refine lone.move laws ?_
      have keeps : ∀ schedule : DepartmentSchedule,
          { schedule with lastRunAt := some last, nextRunAt := some next }.id = schedule.id :=
        fun _ => rfl
      show ((Table.update DepartmentSchedule.id s.db.departmentSchedules id _).map _).Nodup
      rw [Table.keys_update keeps]
      exact lone.keys
    | @kill q id process free left owed =>
      have ids : (kill id s.db).departmentSchedules.map DepartmentSchedule.id =
          s.db.departmentSchedules.map DepartmentSchedule.id := by
        unfold kill
        rw [List.map_map]
        apply List.map_congr_left
        intro row _
        by_cases own : row.departmentId = id <;> simp [own]
      refine ⟨laws, ids ▸ lone.keys, fun r other => ?_⟩
      rw [(tasks_move (by rw [free]; exact left) (by rw [free]; exact owed) r).1,
        (tasks_move (by rw [free]; exact left) (by rw [free]; exact owed) r).2]
      exact lone.others r other
    | quiet apart schedules left owed =>
      refine ⟨laws, schedules ▸ lone.keys, fun r other => ?_⟩
      rw [(tasks_move left owed r).1, (tasks_move left owed r).2]
      exact lone.others r other

theorem waits_step {e : Event P} (waits : Waits p row d known bound k j s)
    (enabled : row.enabled = true) (due : row.nextRunAt = some d) (taken : step str s e = some t)
    (passes : ∀ q now, e = .session (.tick q now) → q = p ∧ d ≤ now)
    (spared : ∀ q, e ≠ .session (.pause q row.departmentId) ∧
      e ≠ .session (.kill q row.departmentId)) :
    Served known row.id t.db ∨
      Waits p row d known bound (k + if e.ticks p then 1 else 0) (j + if e.kills p then 1 else 0)
        t := by
  have lone := waits.lone.step taken fun q now same => (passes q now same).1
  cases e with
  | die q =>
    obtain rfl := Option.some.inj taken
    have died := waits.die q lone
    right
    simpa [Event.ticks, Event.kills] using died
  | session e =>
    have kept : Kept row s t := kept_of_step waits.lone.laws taken fun q =>
      ⟨fun same => (spared q).1 (congrArg _ same), fun same => (spared q).2 (congrArg _ same)⟩
    have alive : (Event.session e).kills p = false := rfl
    rw [alive]
    cases pace taken with
    | @tick q now process free tasks =>
      obtain ⟨rfl, come⟩ := passes q now rfl
      have ticks : (Event.session (.tick q now)).ticks q = true := beq_self_eq_true q
      rw [ticks]
      exact .inr (waits.tick lone come enabled due free tasks)
    | @skip q id createdAt now schedule rest process turn gone tasks =>
      obtain rfl := iteration_own waits.lone turn
      have there := (waits.turns (now, schedule) (by rw [turn]; exact List.mem_cons_self)).2.2
      exact absurd gone there
    | take turn unused left owed =>
      obtain rfl := iteration_own waits.lone turn
      exact waits.take lone turn unused left owed
    | advance turn tasks =>
      obtain rfl := advance_own waits.lone turn
      exact .inr (waits.advance lone turn tasks)
    | @kill q id process free left owed =>
      right
      have other : row.departmentId ≠ id := fun same => (spared q).2 (by rw [same])
      refine waits.quiet lone kept rfl ?_ (if_neg other) ?_ ?_
      · intro schedule
        by_cases own : schedule.departmentId = id <;> simp [own]
      · intro schedule
        by_cases own : schedule.departmentId = id
        · exact .inr (by simp [own])
        · exact .inl (if_neg own)
      · exact tasks_move (by rw [free]; exact left) (by rw [free]; exact owed) p
    | quiet apart schedules left owed =>
      have ticks : (Event.session e).ticks p = false := by
        cases e with
        | tick q now => exact absurd rfl (apart q now)
        | _ => rfl
      rw [ticks]
      right
      refine waits.quiet (f := fun row => row) lone kept ?_ (fun _ => rfl) rfl
        (fun _ => .inl rfl) ?_
      · exact schedules.trans (List.map_id _).symm
      · exact tasks_move left owed p

theorem served_step {e : Event P} (laws : Inv s) (taken : step str s e = some t)
    (served : Served known row.id s.db) : Served known row.id t.db := by
  cases e with
  | die q =>
    obtain rfl := Option.some.inj taken
    exact served
  | session e =>
    obtain ⟨q, db, process, rfl, change, _⟩ := step_change laws taken
    exact served.mono (change_sources change)

theorem lone_run {es : List (Event P)} (run : Run (ofPartial (step str)) s es t) (lone : Lone p s)
    (passes : ∀ q now, .session (.tick q now) ∈ es → q = p) : Lone p t := by
  refine run.invariant_mem (I := Lone p) ?_ lone
  intro a e b member lone taken
  exact lone.step taken fun q now same => passes q now (same ▸ member)

theorem served_run {es : List (Event P)} (run : Run (ofPartial (step str)) s es t)
    (lone : Lone p s) (passes : ∀ q now, .session (.tick q now) ∈ es → q = p)
    (served : Served known row.id s.db) : Served known row.id t.db := by
  have kept : Lone p t ∧ Served known row.id t.db := by
    refine run.invariant_mem (I := fun s => Lone p s ∧ Served known row.id s.db) ?_ ⟨lone, served⟩
    intro a e b member both taken
    exact ⟨both.1.step taken fun q now same => passes q now (same ▸ member),
      served_step both.1.laws taken both.2⟩
  exact kept.2

/-- Along a run the schedule is served, or waits with all passes and deaths counted. -/
theorem waits_run {es : List (Event P)} (run : Run (ofPartial (step str)) s es t)
    (waits : Waits p row d known bound k j s) (enabled : row.enabled = true)
    (due : row.nextRunAt = some d) (passes : RunsPasses p d es)
    (spared : Spared row.departmentId es) :
    Served known row.id t.db ∨
      Waits p row d known bound (k + es.countP (Event.ticks p)) (j + es.countP (Event.kills p))
        t := by
  induction run generalizing k j with
  | nil s => exact .inr waits
  | @cons s m t e es first rest ih =>
    have passesHere : ∀ q now, e = .session (.tick q now) → q = p ∧ d ≤ now :=
      fun q now same => passes q now (same ▸ List.mem_cons_self)
    have passesRest : RunsPasses p d es := fun q now member =>
      passes q now (List.mem_cons_of_mem _ member)
    have sparedHere : ∀ q, e ≠ .session (.pause q row.departmentId) ∧
        e ≠ .session (.kill q row.departmentId) :=
      fun q => ⟨fun same => (spared q).1 (same ▸ List.mem_cons_self),
        fun same => (spared q).2 (same ▸ List.mem_cons_self)⟩
    have sparedRest : Spared row.departmentId es := fun q =>
      ⟨fun member => (spared q).1 (List.mem_cons_of_mem _ member),
        fun member => (spared q).2 (List.mem_cons_of_mem _ member)⟩
    have lone : Lone p m := waits.lone.step first fun q now same => (passesHere q now same).1
    rcases waits_step waits enabled due first passesHere sparedHere with served | next
    · exact .inl (served_run rest lone (fun q now member => (passesRest q now member).1) served)
    · rcases ih next passesRest sparedRest with served | last
      · exact .inl served
      · right
        rw [List.countP_cons, List.countP_cons, Nat.add_comm (es.countP _),
          Nat.add_comm (es.countP _), ← Nat.add_assoc, ← Nat.add_assoc]
        exact last


end Step

/-- A schedule that is due at `d` waits one pass for every ten others that are due then, and one
for each death of the scheduler: after as many it has a new workflow. -/
theorem due_schedule_served {P : Type} [DecidableEq P] {str : Value → String}
    {start s t : World P} {p : P} {row : DepartmentSchedule} {d : ℤ} {es fs : List (Event P)}
    (initial : Initial start)
    (keys : (start.db.departmentSchedules.map DepartmentSchedule.id).Nodup)
    (before : Run (ofPartial (step str)) start es s)
    (passes : ∀ q now, .session (.tick q now) ∈ es → q = p)
    (free : (s.phase p).tasks = []) (listed : row ∈ s.db.departmentSchedules)
    (enabled : row.enabled = true) (due : row.nextRunAt = some d)
    (active : statusOf s.db row.departmentId = some .active)
    (run : Run (ofPartial (step str)) s fs t) (later : RunsPasses p d fs)
    (spared : Spared row.departmentId fs) (finished : (t.phase p).tasks = [])
    (enough : ahead d s.db row.id / 10 + fs.countP (Event.kills p) < fs.countP (Event.ticks p)) :
    Served (s.db.workflows.map Workflow.id) row.id t.db := by
  have closed : Lone p start := by
    refine ⟨inv_initial initial, keys, fun q _ => ?_⟩
    rw [initial.closed q]
    exact ⟨rfl, rfl⟩
  have lone := lone_run before closed passes
  have waits : Waits p row d (s.db.workflows.map Workflow.id) (ahead d s.db row.id) 0 0 s := by
    refine ⟨lone, fun _ member => member, listed, active, ?_, ?_, by omega, fun _ => ?_⟩
    · rw [free]
      intro i member
      cases member
    · rw [free]
      intro a member
      cases member
    · rw [free]
      exact (untaken_nil (d := d)).le
  rcases waits_run run waits enabled due later spared with served | last
  · exact served
  · -- behind the last pass nobody is left to be taken before the schedule
    have left := last.left (by rw [finished]; exact List.not_mem_nil)
    omega

section Sample

open BusinessOs.App.KilledDepartments (Party sampleWorld sampleText sampleWorld_initial)

def sampleSchedule : DepartmentSchedule :=
  ⟨"s", "d", "Daily autonomous operating loop", "daily", "department_operation", .object [], true,
    some 0, none⟩

/-- The scheduler dies in its first pass. -/
def samplePasses : List (Event Party) :=
  [.session (.tick .runner 0), .die .runner, .session (.tick .runner 60),
    .session (.iterate .runner "w" 60), .session (.commit .runner), .session (.commit .runner),
    .session (.commit .runner)]

theorem due_schedule_served_sample :
    ∃ t, Run (ofPartial (step sampleText)) sampleWorld samplePasses t ∧
      Served (sampleWorld.db.workflows.map Workflow.id) "s" t.db := by
  have runs : (samplePasses.foldlM (step sampleText) sampleWorld).isSome := by decide
  obtain ⟨t, last⟩ := Option.isSome_iff_exists.mp runs
  have finished : ((samplePasses.foldlM (step sampleText) sampleWorld).map fun t =>
      (t.phase .runner).tasks) = some [] := by decide
  rw [last, Option.map_some] at finished
  have run := Run.of_foldlM last
  have listed : sampleSchedule ∈ sampleWorld.db.departmentSchedules := List.mem_cons_self
  have due : sampleSchedule.nextRunAt = some 0 := rfl
  refine ⟨t, run, due_schedule_served (p := .runner) sampleWorld_initial (by decide) (.nil _) ?_
    rfl listed rfl due (by decide) run ?_ ?_ (Option.some.inj finished) (by decide)⟩
  · intro q now member
    cases member
  · intro q now member
    have passes : q = .runner ∧ now = 0 ∨ q = .runner ∧ now = 60 := by
      simpa [samplePasses] using member
    rcases passes with ⟨own, rfl⟩ | ⟨own, rfl⟩
    · exact ⟨own, by decide⟩
    · exact ⟨own, by decide⟩
  · intro q
    simp [samplePasses]

end Sample

end BusinessOs.App.ScheduleFairness
