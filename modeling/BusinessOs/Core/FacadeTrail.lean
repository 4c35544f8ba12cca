/- Source: rust/src/pipeline.rs, rust/src/audit.rs
   digest: The two logs of the audit trail are put one after the other, not merged by time. -/

import BusinessOs.Core.Facade
import BusinessOs.Core.OrchestratorLog

set_option autoImplicit false
set_option relaxedAutoImplicit false

namespace BusinessOs.Core.FacadeTrail

open BusinessOs.Lib.Execution
open BusinessOs.Core.Types BusinessOs.Core.Audit BusinessOs.Core.Dispatch
open BusinessOs.Core.Facade BusinessOs.Core.OrchestratorLog

universe u

variable {ω : Type u}

/-- The clock readings of one `run_workflow` call, in the order in which it takes them; a reading
that a branch skips repeats the one before. -/
def runReadings (r : Readings) : List ℤ :=
  [r.running, r.started.timestamp, r.settled, r.completedAt, r.reset, r.finished.timestamp,
    r.escalated.timestamp]

/-- The clock readings of a call. -/
def readings : Call ω → List ℤ
  | .withAgent _ _ | .registerCircuit _ _ _ => []
  | .submitAndRun _ _ _ _ now stamp _ r => now :: stamp.timestamp :: runReadings r
  | .requestApproval _ _ _ _ _ now stamp | .approve _ _ now stamp | .reject _ _ _ now stamp =>
    [now, stamp.timestamp]
  | .checkRateLimit _ now => [now]

/-- The façade and the time that its clock shows between two calls. -/
structure Timed (ω : Type u) where
  os : BusinessOS ω
  clock : ℤ

/-- One call, under a clock that never goes back. -/
def Step (w : Timed ω) (e : Event ω) (t : Timed ω) : Prop :=
  Facade.Step w.os e t.os ∧ (w.clock :: (readings e.call ++ [t.clock])).Pairwise (· ≤ ·)

/-- The entry `a` is not later than `b`. -/
def NotLater (a b : AuditEntry) : Prop := a.timestamp ≤ b.timestamp

def Chronological (os : BusinessOS ω) (workflowId : String) : Prop :=
  (os.auditTrail workflowId).Pairwise NotLater

/-- The approval entry of the call, if it makes one, is not later than an entry that the
orchestrator has for the same workflow, or is beyond the limit of the façade's part of the trail. -/
def Timely (w : Timed ω) (e : Event ω) : Prop :=
  ∀ stamp workflowId, e.call.stamp = some stamp → w.os.subject e.call = some workflowId →
    100 ≤ w.os.audit.entries.countP (fun entry => entry.workflowId == some workflowId) ∨
      ∀ entry ∈ w.os.orchestrator.audit.entries, entry.workflowId = some workflowId →
        stamp.timestamp ≤ entry.timestamp

section Logs

variable {old new : AuditService} {clock later : ℤ} {stamps : List Stamp} {workflowId id : String}

/-- A log that is sorted and does not run ahead of the clock. -/
structure Logged (log : AuditService) (clock : ℤ) : Prop where
  sorted : log.entries.Pairwise NotLater
  past : ∀ e ∈ log.entries, e.timestamp ≤ clock

theorem Logged.mono (logged : Logged old clock) (forward : clock ≤ later) : Logged old later :=
  ⟨logged.sorted, fun e member => (logged.past e member).trans forward⟩

theorem added_times {added : List AuditEntry} (some_ : (added.map stampOf).Sublist stamps) :
    (added.map AuditEntry.timestamp).Sublist (stamps.map Stamp.timestamp) := by
  have times := some_.map Stamp.timestamp
  rw [List.map_map] at times
  exact times

/-- Entries stamped in order between two readings of the clock keep a log sorted. -/
theorem Logged.append (logged : Logged old clock) (grown : Appended old new workflowId stamps)
    (ordered : (clock :: (stamps.map Stamp.timestamp ++ [later])).Pairwise (· ≤ ·)) :
    Logged new later := by
  obtain ⟨added, entries, _, some_⟩ := grown
  have stamped := added_times some_
  obtain ⟨first, rest⟩ := List.pairwise_cons.mp ordered
  obtain ⟨inOrder, _, last⟩ := List.pairwise_append.mp rest
  have stamps (e : AuditEntry) (member : e ∈ added) : e.timestamp ∈ stamps.map Stamp.timestamp :=
    stamped.subset (List.mem_map_of_mem member)
  have forward : clock ≤ later := first later (by simp)
  constructor
  · have kept : (added.map AuditEntry.timestamp).Pairwise (· ≤ ·) := inOrder.sublist stamped
    rw [List.pairwise_map] at kept
    rw [entries, List.pairwise_append]
    refine ⟨logged.sorted, kept, ?_⟩
    intro a before b after
    exact (logged.past a before).trans
      (first b.timestamp (List.mem_append_left _ (stamps b after)))
  · rw [entries]
    intro e member
    rcases List.mem_append.mp member with before | after
    · exact (logged.past e before).trans forward
    · exact last e.timestamp (stamps e after) later (List.mem_singleton_self _)

/-- The entries of a workflow are a selection of the log. -/
theorem entriesForWorkflow_sublist (log : AuditService) (workflowId : String) :
    (log.entriesForWorkflow workflowId).Sublist log.entries :=
  (List.take_sublist _ _).trans List.filter_sublist

theorem Logged.shown (logged : Logged old clock) (workflowId : String) :
    (old.entriesForWorkflow workflowId).Pairwise NotLater :=
  logged.sorted.sublist (entriesForWorkflow_sublist old workflowId)

theorem full_iff (log : AuditService) (workflowId : String) :
    100 ≤ (log.entriesForWorkflow workflowId).length ↔
      100 ≤ log.entries.countP fun e => e.workflowId == some workflowId := by
  rw [entriesForWorkflow_eq, List.length_take, List.countP_eq_length_filter]
  omega

/-- The first entry shown of a sorted log is the earliest of its workflow. -/
theorem Logged.shown_iff (logged : Logged old clock) (workflowId : String) (time : ℤ) :
    (∀ e ∈ old.entriesForWorkflow workflowId, time ≤ e.timestamp) ↔
      ∀ e ∈ old.entries, e.workflowId = some workflowId → time ≤ e.timestamp := by
  have sorted : (old.entries.filter fun e => e.workflowId == some workflowId).Pairwise NotLater :=
    logged.sorted.sublist List.filter_sublist
  have select : ∀ e, e ∈ (old.entries.filter fun e => e.workflowId == some workflowId) ↔
      e ∈ old.entries ∧ e.workflowId = some workflowId := by
    intro e
    rw [List.mem_filter, beq_iff_eq]
  rw [entriesForWorkflow_eq]
  constructor
  · intro all e member about
    have mem := (select e).mpr ⟨member, about⟩
    revert all sorted mem
    cases old.entries.filter fun e => e.workflowId == some workflowId with
    | nil => exact fun _ _ mem => nomatch mem
    | cons first rest =>
      intro sorted all mem
      have earliest := all first List.mem_cons_self
      rcases List.mem_cons.mp mem with rfl | later
      · exact earliest
      · exact earliest.trans ((List.pairwise_cons.mp sorted).1 e later)
  · intro all e member
    obtain ⟨mem, about⟩ := (select e).mp (List.mem_of_mem_take member)
    exact all e mem about

/-- New entries are shown for their own workflow, up to the limit. -/
theorem entriesForWorkflow_append {added : List AuditEntry}
    (own : ∀ e ∈ added, e.workflowId = some workflowId) :
    (AuditService.mk (old.entries ++ added)).entriesForWorkflow id =
      old.entriesForWorkflow id ++ if workflowId = id then
        added.take (100 - (old.entriesForWorkflow id).length) else [] := by
  rw [entriesForWorkflow_eq, entriesForWorkflow_eq, List.filter_append, List.take_append]
  congr 1
  by_cases same : workflowId = id
  · have all : added.filter (fun e => e.workflowId == some id) = added := by
      rw [List.filter_eq_self]
      intro e member
      rw [own e member, same, beq_self_eq_true]
    rw [if_pos same, all, List.length_take]
    congr 1
    omega
  · have none_ : added.filter (fun e => e.workflowId == some id) = [] := by
      rw [List.filter_eq_nil_iff]
      intro e member
      rw [own e member, beq_iff_eq, Option.some.injEq]
      exact same
    rw [if_neg same, none_, List.take_nil]

end Logs

section Steps

variable {os next : BusinessOS ω} {w t : Timed ω} {e : Event ω}

/-- A call leaves the façade's log alone, or it leaves the orchestrator alone and makes one entry
of its own. -/
theorem change_logs (change : Change os e next) :
    (next.audit = os.audit ∧ (e.call.stamp = none ∨ os.subject e.call = none) ∧
      ∃ workflowId stamps, (stamps.map Stamp.timestamp).Sublist (readings e.call) ∧
        Appended os.orchestrator.audit next.orchestrator.audit workflowId stamps) ∨
    (next.orchestrator = os.orchestrator ∧
      ∃ stamp workflowId entry, e.call.stamp = some stamp ∧ os.subject e.call = some workflowId ∧
        stamp.timestamp ∈ readings e.call ∧ next.audit = ⟨os.audit.entries ++ [entry]⟩ ∧
        entry.workflowId = some workflowId ∧ entry.timestamp = stamp.timestamp) := by
  cases change with
  | withAgent kind agent =>
    exact .inl ⟨rfl, .inl rfl, "", [], List.nil_sublist _, appended_nil _ _ _⟩
  | guard guard _ _ subject =>
    exact .inl ⟨rfl, .inr subject, "", [], List.nil_sublist _, appended_nil _ _ _⟩
  | refuse _ subject =>
    exact .inl ⟨rfl, .inr subject, "", [], List.nil_sublist _, appended_nil _ _ _⟩
  | submit kind payload source uuid now stamp world r =>
    have created : Appended os.orchestrator.audit
        (os.orchestrator.submitWorkflow kind payload source uuid now stamp).1.audit ("wf_" ++ uuid)
        [stamp] := appended_record (List.mem_singleton_self _)
    refine .inl ⟨rfl, .inl rfl, "wf_" ++ uuid, _, ?_, created.trans (runWorkflow_appended
      (os.orchestrator.submitWorkflow kind payload source uuid now stamp).1
      (os.orchestrator.submitWorkflow kind payload source uuid now stamp).2 world r)⟩
    refine .cons _ (.cons_cons _ ?_)
    exact .cons _ (.cons_cons _ (.cons _ (.cons _ (.cons _ (.refl _)))))
  | request workflowId title reason action uuid now stamp =>
    exact .inr ⟨rfl, stamp, workflowId, _, rfl, rfl, by simp [readings], rfl, rfl, rfl⟩
  | @decide e d i a stamp entry decision stamped _ subject _ _ about _ timestamp =>
    refine .inr ⟨rfl, stamp, a.workflowId, entry, stamped, subject, ?_, rfl, about, timestamp⟩
    obtain ⟨call, reply⟩ := e
    cases call with
    | approve id decidedBy now own =>
      obtain rfl := Option.some.inj stamped
      exact List.mem_cons_of_mem _ (List.mem_singleton_self _)
    | reject id decidedBy note now own =>
      obtain rfl := Option.some.inj stamped
      exact List.mem_cons_of_mem _ (List.mem_singleton_self _)
    | _ => cases decision

/-- What every run keeps: both logs are sorted and end in the past. -/
structure Clocked (w : Timed ω) : Prop where
  open_ : PendingOpen w.os
  facade : Logged w.os.audit w.clock
  orchestrator : Logged w.os.orchestrator.audit w.clock

/-- Readings that a call takes lie between the two times of the clock. -/
theorem Step.between (step : Step w e t) {times : List ℤ}
    (taken : times.Sublist (readings e.call)) :
    (w.clock :: (times ++ [t.clock])).Pairwise (· ≤ ·) :=
  step.2.sublist ((taken.append (.refl _)).cons_cons _)

theorem Step.forward (step : Step w e t) : w.clock ≤ t.clock :=
  (List.pairwise_cons.mp step.2).1 t.clock (by simp)

theorem Clocked.step (clocked : Clocked w) (step : Step w e t) : Clocked t := by
  have change := step_change clocked.open_ step.1
  refine ⟨change.pendingOpen clocked.open_, ?_, ?_⟩
  · rcases change_logs change with ⟨same, _⟩ | ⟨_, stamp, id, entry, _, _, read, audit, about, time⟩
    · rw [same]
      exact clocked.facade.mono step.forward
    · have grown : Appended w.os.audit t.os.audit id [stampOf entry] := by
        refine ⟨[entry], congrArg AuditService.entries audit, ?_, .refl _⟩
        intro e member
        rw [List.mem_singleton.mp member, about]
      refine clocked.facade.append grown (step.between ?_)
      rw [← time] at read
      exact List.singleton_sublist.mpr read
  · rcases change_logs change with ⟨_, _, id, stamps, taken, grown⟩ | ⟨same, _⟩
    · exact clocked.orchestrator.append grown (step.between taken)
    · rw [same]
      exact clocked.orchestrator.mono step.forward

/-- Over sorted logs only the two parts of the trail can be out of order with each other. -/
theorem Clocked.chronological_iff (clocked : Clocked w) (workflowId : String) :
    Chronological w.os workflowId ↔ ∀ a ∈ w.os.audit.entriesForWorkflow workflowId,
      ∀ b ∈ w.os.orchestrator.audit.entriesForWorkflow workflowId, NotLater a b := by
  unfold Chronological BusinessOS.auditTrail
  rw [List.pairwise_append]
  have left := clocked.facade.shown workflowId
  have right := clocked.orchestrator.shown workflowId
  exact ⟨fun all => all.2.2, fun cross => ⟨left, right, cross⟩⟩

/-- New orchestrator entries follow all that the façade shows. -/
theorem Clocked.chronological_grown (clocked : Clocked w) (after : Clocked t) (step : Step w e t)
    (same : t.os.audit = w.os.audit) {workflowId : String} {stamps : List Stamp}
    (taken : (stamps.map Stamp.timestamp).Sublist (readings e.call))
    (grown : Appended w.os.orchestrator.audit t.os.orchestrator.audit workflowId stamps)
    (id : String) : Chronological t.os id ↔ Chronological w.os id := by
  obtain ⟨added, entries, own, some_⟩ := grown
  have audit : t.os.orchestrator.audit = ⟨w.os.orchestrator.audit.entries ++ added⟩ :=
    congrArg AuditService.mk entries
  rw [after.chronological_iff, clocked.chronological_iff, same, audit,
    entriesForWorkflow_append own]
  constructor
  · intro all a shown b member
    exact all a shown b (List.mem_append_left _ member)
  · intro all a shown b member
    rcases List.mem_append.mp member with old | new
    · exact all a shown b old
    · have isAdded : b ∈ added := by
        split_ifs at new
        · exact List.mem_of_mem_take new
        · cases new
      have past := clocked.facade.past a ((entriesForWorkflow_sublist _ _).subset shown)
      have late := (List.pairwise_cons.mp (step.between taken)).1 b.timestamp
        (List.mem_append_left _ ((added_times some_).subset (List.mem_map_of_mem isAdded)))
      exact past.trans late

/-- A new entry of the façade is shown before all that the orchestrator shows. -/
theorem Clocked.chronological_entry (clocked : Clocked w) (after : Clocked t)
    (same : t.os.orchestrator = w.os.orchestrator) {workflowId : String} {entry : AuditEntry}
    (audit : t.os.audit = ⟨w.os.audit.entries ++ [entry]⟩)
    (about : entry.workflowId = some workflowId) (id : String) :
    Chronological t.os id ↔ Chronological w.os id ∧ (workflowId = id →
      100 ≤ (w.os.audit.entriesForWorkflow id).length ∨
        ∀ b ∈ w.os.orchestrator.audit.entriesForWorkflow id, NotLater entry b) := by
  have own : ∀ e ∈ [entry], e.workflowId = some workflowId := by
    intro e member
    rw [List.mem_singleton.mp member, about]
  rw [after.chronological_iff, clocked.chronological_iff, same, audit,
    entriesForWorkflow_append own]
  by_cases hit : workflowId = id
  · rw [if_pos hit]
    by_cases full : 100 ≤ (w.os.audit.entriesForWorkflow id).length
    · rw [Nat.sub_eq_zero_of_le full, List.take_zero, List.append_nil]
      exact ⟨fun all => ⟨all, fun _ => .inl full⟩, And.left⟩
    · have room : [entry].take (100 - (w.os.audit.entriesForWorkflow id).length) = [entry] := by
        rw [List.take_of_length_le]
        rw [List.length_singleton]
        omega
      rw [room]
      constructor
      · intro all
        refine ⟨fun a shown => all a (List.mem_append_left _ shown), fun _ => .inr ?_⟩
        exact all entry (List.mem_append_right _ (List.mem_singleton_self _))
      · rintro ⟨all, last⟩ a shown
        rcases List.mem_append.mp shown with old | new
        · exact all a old
        · rw [List.mem_singleton.mp new]
          exact (last hit).resolve_left full
  · rw [if_neg hit, List.append_nil]
    exact ⟨fun all => ⟨all, fun same => absurd same hit⟩, And.left⟩

/-- A call keeps every trail in order exactly when it is timely. -/
theorem Clocked.chronological_step (clocked : Clocked w) (step : Step w e t) :
    (∀ id, Chronological t.os id) ↔ (∀ id, Chronological w.os id) ∧ Timely w e := by
  have after := clocked.step step
  rcases change_logs (step_change clocked.open_ step.1) with
    ⟨same, quiet, workflowId, stamps, taken, grown⟩ |
    ⟨same, stamp, workflowId, entry, stamped, subject, _, audit, about, time⟩
  · have timely : Timely w e := by
      intro stamp id stamped subject
      rcases quiet with none_ | none_
      · rw [none_] at stamped
        cases stamped
      · rw [none_] at subject
        cases subject
    simp only [clocked.chronological_grown after step same taken grown, timely, and_true]
  · simp only [clocked.chronological_entry after same audit about, forall_and]
    refine and_congr_right fun _ => ?_
    constructor
    · intro all stamp' id' stamped' subject'
      rw [← full_iff, ← clocked.orchestrator.shown_iff]
      obtain rfl := Option.some.inj (stamped.symm.trans stamped')
      obtain rfl := Option.some.inj (subject.symm.trans subject')
      have one := all workflowId rfl
      unfold NotLater at one
      rw [time] at one
      exact one
    · rintro timely id rfl
      have one := timely stamp workflowId stamped subject
      rw [← full_iff, ← clocked.orchestrator.shown_iff, ← time] at one
      exact one

end Steps

/-- After a run of façade calls under a clock that never goes back, every trail is in order exactly
when each call of the run was timely. -/
theorem trail_chronological_iff {config : BusinessOSConfig} {clock : ℤ} {es : List (Event ω)}
    {w : Timed ω} (run : Run Step ⟨.new config, clock⟩ es w) :
    (∀ id, Chronological w.os id) ↔ Run (Guarded Timely Step) ⟨.new config, clock⟩ es w := by
  have start : Clocked (⟨.new config, clock⟩ : Timed ω) := by
    refine ⟨?_, ⟨.nil, ?_⟩, ⟨.nil, ?_⟩⟩
    all_goals
      intro e member
      cases member
  have empty : ∀ id, Chronological (.new config : BusinessOS ω) id := fun id => .nil
  have exactly := Run.exactly_guarded (I := fun w : Timed ω => ∀ id, Chronological w.os id)
    (fun s e t clocked step => clocked.step step)
    (fun s e t clocked step => clocked.chronological_step step) run start
  exact exactly.trans (and_iff_right empty)

section Sample

/-- A workflow is submitted, and then an approval is requested for it. -/
def submitCall : Call Unit :=
  .submitAndRun .financeOperations .null "api" "a" 1 ⟨"e1", 2⟩ ()
    ⟨2, ⟨"", 2⟩, 2, 2, 0, 2, ⟨"", 2⟩, ⟨"", 2⟩⟩

def askCall : Call Unit := .requestApproval "wf_a" "Refund" "money" .null "b" 3 ⟨"e2", 4⟩

def submitted : BusinessOS Unit :=
  ((BusinessOS.new .default).submitAndRun .financeOperations .null "api" "a" 1 ⟨"e1", 2⟩ ()
    ⟨2, ⟨"", 2⟩, 2, 2, 0, 2, ⟨"", 2⟩, ⟨"", 2⟩⟩).1

def asked : BusinessOS Unit :=
  (submitted.requestApproval "wf_a" "Refund" "money" .null "b" 3 ⟨"e2", 4⟩).1

def sampleEvents : List (Event Unit) :=
  [⟨submitCall, .ran (.error (.noAgent .financeOperations))⟩,
    ⟨askCall, .requested (.new "apr_b" "wf_a" "Refund" "money" .null 3)⟩]

theorem sample_run : Run Step ⟨.new .default, 0⟩ sampleEvents ⟨asked, 4⟩ := by
  have first : Step ⟨.new .default, 0⟩ ⟨submitCall, .ran (.error (.noAgent .financeOperations))⟩
      ⟨submitted, 2⟩ := ⟨rfl, by decide⟩
  have second : Step ⟨submitted, 2⟩
      ⟨askCall, .requested (.new "apr_b" "wf_a" "Refund" "money" .null 3)⟩ ⟨asked, 4⟩ :=
    ⟨rfl, by decide⟩
  exact .cons first (.single second)

theorem trail_chronological_iff_sample :
    (∀ id, Chronological asked id) ↔
      Run (Guarded Timely Step) ⟨.new .default, 0⟩ sampleEvents ⟨asked, 4⟩ :=
  trail_chronological_iff sample_run

/-- The request of time 4 stands before the submission of time 2. -/
theorem request_before_submission :
    Run Step ⟨.new .default, 0⟩ sampleEvents ⟨asked, 4⟩ ∧
      (asked.auditTrail "wf_a").map AuditEntry.timestamp = [4, 2] ∧
      ¬ Chronological asked "wf_a" := by
  have shown : (asked.auditTrail "wf_a").map AuditEntry.timestamp = [4, 2] := by decide +kernel
  refine ⟨sample_run, shown, ?_⟩
  intro sorted
  have kept : ((asked.auditTrail "wf_a").map AuditEntry.timestamp).Pairwise (· ≤ ·) := by
    rw [List.pairwise_map]
    exact sorted
  rw [shown] at kept
  exact absurd kept (by decide)

end Sample

end BusinessOs.Core.FacadeTrail
