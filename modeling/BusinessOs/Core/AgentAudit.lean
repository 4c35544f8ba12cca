/- Source: rust/src/orchestrator.rs
   digest: What agents record into their contexts, and what of it the orchestrator keeps. -/

import BusinessOs.Core.OrchestratorLog

set_option autoImplicit false
set_option relaxedAutoImplicit false

namespace BusinessOs.Core.AgentAudit

open BusinessOs.Lib.Execution BusinessOs.Lib.Json.Tree
open BusinessOs.Core.Types BusinessOs.Core.Audit BusinessOs.Core.Dispatch
open BusinessOs.Core.OrchestratorLog

universe u

variable {ω : Type u}

/-- The entries that the agent of a `run_workflow` call records into the context it is given. -/
def recordedBy (o : Orchestrator ω) (workflow : Workflow) (world : ω) (r : Readings) :
    Option (List AuditEntry) :=
  match o.dispatch workflow r with
  | .error _ => none
  | .ok (_, workflow, agent) => some (agent.run world workflow .new).1.audit.entries

/-- The orchestrator, and for each invocation so far what its agent recorded. -/
structure Watched (ω : Type u) where
  orchestrator : Orchestrator ω
  recorded : List (List AuditEntry)

/-- The orchestrator's operations, with the UUIDs and clock readings that they take. -/
inductive Event (ω : Type u)
  | withAgent (kind : WorkflowKind) (agent : Agent ω)
  | submitWorkflow (kind : WorkflowKind) (payload : Value) (source uuid : String) (now : ℤ)
      (stamp : Stamp)
  | runWorkflow (workflow : Workflow) (world : ω) (r : Readings)

def perform (w : Watched ω) : Event ω → Watched ω
  | .withAgent kind agent => { w with orchestrator := w.orchestrator.withAgent kind agent }
  | .submitWorkflow kind payload source uuid now stamp =>
    { w with
      orchestrator := (w.orchestrator.submitWorkflow kind payload source uuid now stamp).1 }
  | .runWorkflow workflow world r =>
    { orchestrator := (w.orchestrator.runWorkflow workflow world r).1
      recorded := w.recorded ++ (recordedBy w.orchestrator workflow world r).toList }

/-- The stamps that the orchestrator takes for its own entries. -/
def Event.stamps : Event ω → List Stamp
  | .withAgent _ _ => []
  | .submitWorkflow _ _ _ _ _ stamp => [stamp]
  | .runWorkflow _ _ r => [r.started, r.finished, r.escalated]

/-- One operation; the UUIDs of new entries occur nowhere else. -/
structure Step (w : Watched ω) (e : Event ω) (t : Watched ω) : Prop where
  performed : perform w e = t
  /-- The orchestrator's new entries are none that an agent has recorded. -/
  stamped : ∀ stamp ∈ e.stamps, ∀ entry ∈ t.recorded.flatten, stamp.id ≠ entry.id
  /-- The agent's new entries are none that the orchestrator has. -/
  written : ∀ workflow world r entries, e = .runWorkflow workflow world r →
    recordedBy w.orchestrator workflow world r = some entries →
    ∀ entry ∈ entries, ∀ logged ∈ w.orchestrator.audit.entries, entry.id ≠ logged.id

/-- The agent of the call records nothing. -/
def Quiet (w : Watched ω) : Event ω → Prop
  | .runWorkflow workflow world r =>
    ∀ entries, recordedBy w.orchestrator workflow world r = some entries → entries = []
  | _ => True

/-- All that agents recorded is in the orchestrator's log, with each invocation's entries in
order. -/
def Kept (w : Watched ω) : Prop :=
  ∀ entries ∈ w.recorded, entries.Sublist w.orchestrator.audit.entries

section Steps

variable {w t : Watched ω} {e : Event ω}

/-- The log grows by entries with the stamps of the operation. -/
theorem perform_appended (w : Watched ω) (e : Event ω) :
    ∃ workflowId, Appended w.orchestrator.audit (perform w e).orchestrator.audit workflowId
      e.stamps := by
  cases e with
  | withAgent kind agent => exact ⟨"", appended_nil _ _ _⟩
  | submitWorkflow kind payload source uuid now stamp =>
    exact ⟨"wf_" ++ uuid, appended_record (List.mem_singleton_self _)⟩
  | runWorkflow workflow world r =>
    exact ⟨workflow.id, runWorkflow_appended w.orchestrator workflow world r⟩

/-- No entry of the log is one that an agent recorded. -/
def Apart (w : Watched ω) : Prop :=
  ∀ entry ∈ w.recorded.flatten, ∀ logged ∈ w.orchestrator.audit.entries, entry.id ≠ logged.id

/-- What a run of the agent adds to the record. -/
theorem recorded_perform (w : Watched ω) (e : Event ω) :
    ((perform w e).recorded = w.recorded ∧ Quiet w e) ∨
      ∃ workflow world r entries, e = .runWorkflow workflow world r ∧
        recordedBy w.orchestrator workflow world r = some entries ∧
        (perform w e).recorded = w.recorded ++ [entries] ∧ (Quiet w e ↔ entries = []) := by
  cases e with
  | withAgent kind agent => exact .inl ⟨rfl, trivial⟩
  | submitWorkflow kind payload source uuid now stamp => exact .inl ⟨rfl, trivial⟩
  | runWorkflow workflow world r =>
    cases answer : recordedBy w.orchestrator workflow world r with
    | none =>
      refine .inl ⟨?_, ?_⟩
      · simp only [perform, answer, Option.toList_none, List.append_nil]
      · intro entries found
        rw [answer] at found
        cases found
    | some entries =>
      refine .inr ⟨workflow, world, r, entries, rfl, answer, ?_, ?_⟩
      · simp only [perform, answer, Option.toList_some]
      · simp only [Quiet, answer, Option.some.injEq, forall_eq']

theorem Apart.step (apart : Apart w) (step : Step w e t) : Apart t := by
  obtain ⟨rfl, stamped, written⟩ := step
  obtain ⟨id, added, entries, _, stamps⟩ := perform_appended w e
  have fresh : ∀ entry ∈ (perform w e).recorded.flatten, ∀ logged ∈ added,
      entry.id ≠ logged.id := by
    intro entry member logged new
    have stamp := stamps.subset (List.mem_map_of_mem new)
    exact (stamped _ stamp entry member).symm
  intro entry member logged logs
  rw [entries] at logs
  rcases List.mem_append.mp logs with old | new
  · rcases recorded_perform w e with ⟨same, _⟩ | ⟨workflow, world, r, more, call, found, grown, _⟩
    · rw [same] at member
      exact apart entry member logged old
    · rw [grown, List.flatten_append, List.mem_append, List.flatten_singleton] at member
      rcases member with before | now
      · exact apart entry before logged old
      · exact written workflow world r more call found entry now logged old
  · exact fresh entry member logged new

/-- Apart from the log, what agents recorded is kept only when it is nothing. -/
theorem Apart.kept_iff (apart : Apart w) : Kept w ↔ ∀ entries ∈ w.recorded, entries = [] := by
  constructor
  · intro kept entries member
    rw [List.eq_nil_iff_forall_not_mem]
    intro entry inside
    exact apart entry (List.mem_flatten_of_mem member inside) entry
      ((kept entries member).subset inside) rfl
  · intro none_ entries member
    rw [none_ entries member]
    exact List.nil_sublist _

/-- An operation keeps the agents' entries exactly when its agent records none. -/
theorem Apart.kept_step (apart : Apart w) (step : Step w e t) : Kept t ↔ Kept w ∧ Quiet w e := by
  rw [(apart.step step).kept_iff, apart.kept_iff, ← step.performed]
  rcases recorded_perform w e with ⟨same, quiet⟩ | ⟨_, _, _, entries, _, _, grown, quiet⟩
  · rw [same]
    exact (and_iff_left quiet).symm
  · rw [grown, quiet]
    simp only [List.forall_mem_append, List.forall_mem_singleton]

end Steps

/-- After any operations on an orchestrator, all that its agents recorded is in its log exactly
when they recorded nothing. -/
theorem recorded_kept_iff {o : Orchestrator ω} {es : List (Event ω)} {w : Watched ω}
    (run : Run Step ⟨o, []⟩ es w) : Kept w ↔ Run (Guarded Quiet Step) ⟨o, []⟩ es w := by
  have apart : Apart (⟨o, []⟩ : Watched ω) := fun entry member => nomatch member
  have empty : Kept (⟨o, []⟩ : Watched ω) := fun entries member => nomatch member
  have exactly := Run.exactly_guarded (I := Kept) (fun s e t apart step => apart.step step)
    (fun s e t apart step => apart.kept_step step) run apart
  exact exactly.trans (and_iff_right empty)

section Sample

/-- An agent that records the payment it makes. -/
def payer : Agent Unit where
  name := "payer"
  run := fun _ workflow context =>
    ({ context with
        audit := context.audit.record .taskCompleted "payer" "invoice paid" (some workflow.id)
          .null ⟨"r1", 2⟩ },
      .ok .null)

def staffed : Orchestrator Unit := (Orchestrator.new .default).withAgent .financeOperations payer

def invoice : Workflow := (staffed.submitWorkflow .financeOperations .null "api" "a" 0 ⟨"", 0⟩).2

def sampleReadings : Readings := ⟨1, ⟨"e1", 1⟩, 3, 3, 0, 3, ⟨"e2", 3⟩, ⟨"e3", 3⟩⟩

def sampleEvents : List (Event Unit) := [.runWorkflow invoice () sampleReadings]

def paid : Watched Unit := perform ⟨staffed, []⟩ (.runWorkflow invoice () sampleReadings)

theorem sample_run : Run Step ⟨staffed, []⟩ sampleEvents paid := by
  refine .single ⟨rfl, by decide +kernel, ?_⟩
  intro workflow world r entries call found entry member logged inside
  cases inside

theorem recorded_kept_iff_sample :
    Kept paid ↔ Run (Guarded Quiet Step) ⟨staffed, []⟩ sampleEvents paid :=
  recorded_kept_iff sample_run

/-- The invocation succeeds, and its payment is in no log. -/
theorem payment_lost :
    Run Step ⟨staffed, []⟩ sampleEvents paid ∧
      paid.recorded.flatten.map AuditEntry.message = ["invoice paid"] ∧
      paid.orchestrator.audit.entries.map AuditEntry.action =
        [.workflowStarted, .workflowCompleted] ∧
      ¬ Kept paid := by
  have recorded : paid.recorded.flatten.map AuditEntry.message = ["invoice paid"] := by
    decide +kernel
  refine ⟨sample_run, recorded, by decide +kernel, ?_⟩
  intro kept
  have some_ : (paid.recorded.flatten.map AuditEntry.message).Sublist
      (paid.orchestrator.audit.entries.map AuditEntry.message) := by
    have one : paid.recorded.flatten.Sublist paid.orchestrator.audit.entries :=
      kept _ List.mem_cons_self
    exact one.map _
  rw [recorded] at some_
  exact absurd some_ (by decide +kernel)

end Sample

end BusinessOs.Core.AgentAudit
