/- Source: rust/src/orchestrator.rs
   digest: What a call of the orchestrator appends to its log: entries about one workflow, in
     time. -/

import BusinessOs.Core.RetryRuns

set_option autoImplicit false
set_option relaxedAutoImplicit false

namespace BusinessOs.Core.OrchestratorLog

open BusinessOs.Lib.Json.Tree BusinessOs.Lib.Chrono
open BusinessOs.Core.Types BusinessOs.Core.StateMachine BusinessOs.Core.Audit
open BusinessOs.Core.Dispatch BusinessOs.Core.RetryRuns

universe u

variable {ω : Type u}

section Moves

variable {workflow next : Workflow} {target : WorkflowStatus} {now completedAt : ℤ} {value : Value}
variable {error : String}

theorem transition_id (moved : transition workflow target now = .ok next) :
    next.id = workflow.id := by
  unfold transition at moved
  split_ifs at moved
  obtain rfl := Except.ok.inj moved
  rfl

/-- What a method writes after the transition leaves the id as it is. -/
theorem written_id (write : Workflow → Workflow) (keeps : ∀ moved, (write moved).id = moved.id)
    (moved : (transition workflow target now >>= fun moved => pure (write moved)) = .ok next) :
    next.id = workflow.id := by
  cases first : transition workflow target now with
  | error e => simp [first] at moved
  | ok step =>
    rw [first] at moved
    obtain rfl := Except.ok.inj moved
    exact (keeps step).trans (transition_id first)

theorem markCompleted_id (moved : markCompleted workflow value now completedAt = .ok next) :
    next.id = workflow.id :=
  written_id (fun moved => { moved with result := some value, completedAt := some completedAt })
    (fun _ => rfl) moved

theorem markFailed_id (moved : markFailed workflow error now = .ok next) :
    next.id = workflow.id :=
  written_id (fun moved => { moved with error := some error }) (fun _ => rfl) moved

theorem retry_id (moved : retry workflow now = .ok next) : next.id = workflow.id := by
  unfold retry at moved
  split_ifs at moved
  exact transition_id moved

end Moves

def stampOf (e : AuditEntry) : Stamp := ⟨e.id, e.timestamp⟩

/-- The log has grown by entries about one workflow, with some of these stamps. -/
def Appended (old new : AuditService) (workflowId : String) (stamps : List Stamp) : Prop :=
  ∃ added, new.entries = old.entries ++ added ∧ (∀ e ∈ added, e.workflowId = some workflowId) ∧
    (added.map stampOf).Sublist stamps

section Log

variable (self : Orchestrator ω) (workflow : Workflow) (world : ω) (r : Readings)

theorem appended_nil (audit : AuditService) (workflowId : String) (stamps : List Stamp) :
    Appended audit audit workflowId stamps :=
  ⟨[], (List.append_nil _).symm, by simp, List.nil_sublist _⟩

theorem Appended.trans {a b c : AuditService} {workflowId : String} {first rest : List Stamp}
    (ab : Appended a b workflowId first) (bc : Appended b c workflowId rest) :
    Appended a c workflowId (first ++ rest) := by
  obtain ⟨xs, grown, own, stamps⟩ := ab
  obtain ⟨ys, again, own', stamps'⟩ := bc
  refine ⟨xs ++ ys, ?_, ?_, ?_⟩
  · rw [again, grown, List.append_assoc]
  · intro e member
    exact (List.mem_append.mp member).elim (own e) (own' e)
  · rw [List.map_append]
    exact stamps.append stamps'

/-- One record. -/
theorem appended_record {audit : AuditService} {action : AuditAction} {actor message : String}
    {workflowId : String} {metadata : Value} {stamp : Stamp} {stamps : List Stamp}
    (read : stamp ∈ stamps) :
    Appended audit (audit.record action actor message (some workflowId) metadata stamp) workflowId
      stamps := by
  refine ⟨[_], rfl, ?_, List.singleton_sublist.mpr read⟩
  intro e member
  rw [List.mem_singleton.mp member]

theorem settle_appended (result : Except String Value) :
    Appended self.audit (self.settle workflow r result).1.audit workflow.id
      [r.finished, r.escalated] := by
  cases result with
  | ok value =>
    dsimp only [Orchestrator.settle]
    cases moved : markCompleted workflow value r.settled r.completedAt with
    | error e => exact appended_nil _ _ _
    | ok next =>
      rw [← markCompleted_id moved]
      exact appended_record List.mem_cons_self
  | error errMsg =>
    dsimp only [Orchestrator.settle]
    cases moved : markFailed workflow ("agent error: " ++ errMsg) r.settled with
    | error e => exact appended_nil _ _ _
    | ok next =>
      rw [← markFailed_id moved]
      dsimp only
      by_cases again : (self.shouldRetry next r.jitter).shouldRetry = true
      · rw [if_pos again]
        cases reset : retry next r.reset with
        | error e => exact appended_nil _ _ _
        | ok last =>
          rw [← retry_id reset]
          exact appended_record List.mem_cons_self
      · rw [if_neg again]
        exact (appended_record (List.mem_singleton_self _)).trans
          (appended_record (List.mem_singleton_self _))

/-- A call logs the start, then the end, then an escalation, or the first ones of these. -/
theorem runWorkflow_appended :
    Appended self.audit (self.runWorkflow workflow world r).1.audit workflow.id
      [r.started, r.finished, r.escalated] := by
  unfold Orchestrator.runWorkflow
  rcases dispatch_cases self workflow r with ⟨_, agent, _, reached⟩ | ⟨_, e, refused⟩
  · rw [reached]
    have first : Appended self.audit (started self workflow r.started).audit workflow.id
        [r.started] := appended_record (List.mem_singleton_self _)
    exact first.trans (settle_appended (started self workflow r.started)
      (running workflow r.running) r (agent.run world (running workflow r.running) .new).2)
  · rw [refused]
    exact appended_nil _ _ _

end Log

end BusinessOs.Core.OrchestratorLog
