/- Source: app/services/scheduler.py, app/services/departments.py (kill)
   digest: What a step of the departments' sessions does to the schedules, and to the turns and
     advances that the passes over them have still to make. -/

import BusinessOs.App.KilledDepartments
import BusinessOs.App.ScheduleOccurrences
import BusinessOs.Lib.Batches

set_option autoImplicit false
set_option relaxedAutoImplicit false

namespace BusinessOs.App.ScheduleTurns

open BusinessOs.Lib BusinessOs.Lib.Interleaving BusinessOs.Lib.Json.Tree
open BusinessOs.App.Models BusinessOs.App.Workflows BusinessOs.App.Company
open BusinessOs.App.Sessions BusinessOs.App.DepartmentAgent BusinessOs.App.Lifecycle
open BusinessOs.App.LifecycleCommits BusinessOs.App.LifecycleLaws
open BusinessOs.App.KilledDepartments (setStatus_statusOf)
open BusinessOs.App.ScheduleOccurrences (iterations advances advance_schedules resume_tasks
  iterations_due advances_due)

variable {P : Type} [DecidableEq P]

/-- A step by what it does to the schedules and to the passes over them. -/
inductive Pace (s : World P) : Event P → World P → Prop
  /-- A pass begins. -/
  | tick {p : P} {now : ℤ} {process : Process} (free : (s.phase p).tasks = [])
      (tasks : process.tasks = (dueSchedules now s.db).map (Task.iteration now)) :
      Pace s (.tick p now) (s.move p s.db process)
  /-- A turn whose department is gone. -/
  | skip {p : P} {id : String} {createdAt now : ℤ} {schedule : DepartmentSchedule}
      {rest : List Task} {process : Process}
      (turn : (s.phase p).tasks = .iteration now schedule :: rest)
      (gone : s.db.department schedule.departmentId = none) (tasks : process.tasks = rest) :
      Pace s (.iterate p id createdAt) (s.move p s.db process)
  /-- A turn that commits a workflow, with the advance of its schedule to come. -/
  | take {p : P} {id : String} {createdAt now : ℤ} {schedule : DepartmentSchedule}
      {rest : List Task} {copy : DepartmentCopy} {process : Process}
      (turn : (s.phase p).tasks = .iteration now schedule :: rest) (unused : Unused s.db id)
      (left : iterations process.tasks = iterations rest)
      (owed : advances process.tasks =
        (schedule.id, now, nextRun now schedule.cadence) :: advances rest) :
      Pace s (.iterate p id createdAt)
        (s.move p (insertWorkflow s.db (scheduledCreation schedule copy id createdAt)) process)
  | advance {p : P} {id : String} {last next : ℤ} {rest : List Task} {process : Process}
      (turn : (s.phase p).tasks = .write (.schedule id last next) :: rest)
      (tasks : process.tasks = rest) :
      Pace s (.commit p) (s.move p ((Write.schedule id last next).apply s.db) process)
  | kill {p : P} {id : String} {process : Process} (free : (s.phase p).tasks = [])
      (left : iterations process.tasks = []) (owed : advances process.tasks = []) :
      Pace s (.kill p id) (s.move p (kill id s.db) process)
  | quiet {e : Event P} {p : P} {db : CompanyDatabase} {process : Process}
      (apart : ∀ q now, e ≠ .tick q now)
      (schedules : db.departmentSchedules = s.db.departmentSchedules)
      (left : iterations process.tasks = iterations (s.phase p).tasks)
      (owed : advances process.tasks = advances (s.phase p).tasks) :
      Pace s e (s.move p db process)

section Steps

variable {str : Value → String} {s t : World P} {e : Event P}

theorem pace_iterate {p : P} {id : String} {createdAt : ℤ}
    (taken : step str s (.iterate p id createdAt) = some t) :
    Pace s (.iterate p id createdAt) t := by
  simp only [step] at taken
  split at taken
  · rename_i now schedule tasks call queue
    split at taken
    · rename_i gone
      obtain rfl := Option.some.inj taken
      obtain ⟨_, absent⟩ := Option.or_eq_none_iff.mp gone
      exact .skip queue (Option.map_eq_none_iff.mp absent) rfl
    · rename_i copy held
      split at taken
      · rename_i unused
        obtain rfl := Option.some.inj taken
        exact .take queue unused rfl rfl
      · cases taken
  · cases taken

theorem pace_commit {p : P} (taken : step str s (.commit p) = some t) : Pace s (.commit p) t := by
  simp only [step] at taken
  split at taken
  · split at taken
    · cases taken
    · obtain rfl := Option.some.inj taken
      refine .quiet (by simp) (advance_schedules _ _) ?_ ?_
      · rw [resume_tasks]
      · rw [resume_tasks]
  · rename_i write tasks call queue
    obtain rfl := Option.some.inj taken
    cases write with
    | audit entry =>
      refine .quiet (by simp) rfl ?_ ?_
      · rw [queue]
        rfl
      · rw [queue]
        rfl
    | schedule id last next => exact .advance queue rfl
  · rename_i workflow payload tasks call queue
    split at taken
    · obtain rfl := Option.some.inj taken
      refine .quiet (by simp) (advance_schedules _ _) ?_ ?_
      · rw [queue]
        rfl
      · rw [queue]
        rfl
    · obtain rfl := Option.some.inj taken
      refine .quiet (by simp) rfl ?_ ?_
      · rw [queue]
        rfl
      · rw [queue]
        rfl
  · cases taken

theorem pace (taken : step str s e = some t) : Pace s e t := by
  cases e with
  | iterate p id createdAt => exact pace_iterate taken
  | commit p => exact pace_commit taken
  | pause p id =>
    simp only [step] at taken
    split at taken
    · rename_i free
      obtain ⟨department, _, rfl⟩ := Option.map_eq_some_iff.mp taken
      refine .quiet (by simp) rfl ?_ ?_
      · rw [free.2]
        rfl
      · rw [free.2]
        rfl
    · cases taken
  | kill p id =>
    simp only [step] at taken
    split at taken
    · rename_i free
      obtain ⟨department, _, rfl⟩ := Option.map_eq_some_iff.mp taken
      exact .kill free.2 rfl rfl
    · cases taken
  | tick p now =>
    simp only [step] at taken
    split at taken
    · rename_i free
      obtain rfl := Option.some.inj taken
      exact .tick free.2 rfl
    · cases taken
  | pass p =>
    simp only [step] at taken
    split at taken
    · rename_i free
      obtain rfl := Option.some.inj taken
      have none_ : ∀ rows : List Workflow, iterations (rows.map fun row =>
          Task.runWorkflow (.load row) row.payload) = [] ∧ advances (rows.map fun row =>
          Task.runWorkflow (.load row) row.payload) = [] := by
        intro rows
        induction rows with
        | nil => exact ⟨rfl, rfl⟩
        | cons row rows ih => exact ih
      refine .quiet (by simp) rfl ?_ ?_
      · rw [free.2]
        exact (none_ _).1
      · rw [free.2]
        exact (none_ _).2
    · cases taken
  | request p departmentId id createdAt =>
    simp only [step] at taken
    split at taken
    · rename_i free
      obtain ⟨department, _, rfl⟩ := Option.map_eq_some_iff.mp taken
      refine .quiet (by simp) rfl ?_ ?_
      · rw [free.2.1]
        rfl
      · rw [free.2.1]
        rfl
    · cases taken
  | create p creation runImmediately =>
    simp only [step] at taken
    split at taken
    · rename_i free
      obtain rfl := Option.some.inj taken
      refine .quiet (by simp) rfl ?_ ?_
      · rw [free.2.1]
        cases runImmediately <;> rfl
      · rw [free.2.1]
        cases runImmediately <;> rfl
    · cases taken
  | call p plan other =>
    simp only [step] at taken
    split at taken
    · split at taken
      · obtain rfl := Option.some.inj taken
        refine .quiet (by simp) ?_ ?_ ?_
        · exact (advance_schedules _ _).trans rfl
        · rw [resume_tasks]
        · rw [resume_tasks]
      · cases taken
    · cases taken

end Steps

end BusinessOs.App.ScheduleTurns
