/- Source: rust/src/audit.rs
   digest: The audit entries of one workflow are all returned up to a hundred of them. -/

import BusinessOs.Core.Audit
import Mathlib.Data.List.TakeDrop

set_option autoImplicit false
set_option relaxedAutoImplicit false

namespace BusinessOs.Core.WorkflowEntries

open BusinessOs.Lib.Json.Tree BusinessOs.Core.Types BusinessOs.Core.Audit

/-- The methods that append to the log. -/
inductive Call
  | record (action : AuditAction) (actor message : String) (workflowId : Option String)
    (metadata : Value)
  | workflowCreated (workflowId : String) (kind : WorkflowKind) (source : String)
  | workflowStarted (workflowId : String)
  | workflowCompleted (workflowId : String) (result : Value)
  | workflowFailed (workflowId error : String)
  | taskStarted (workflowId taskId agent tool : String)
  | taskCompleted (workflowId taskId : String)
  | taskFailed (workflowId taskId error : String)
  | approvalRequested (workflowId title : String)
  | approvalGranted (workflowId decidedBy : String)
  | approvalRejected (workflowId decidedBy note : String)
  | escalation (workflowId : Option String) (severity : Severity) (reason : String)
  | escalationResolved (escalationId resolution : String)

/-- The workflow that the call records something about. -/
def Call.subject : Call → Option String
  | .record _ _ _ workflowId _ | .escalation workflowId _ _ => workflowId
  | .workflowCreated workflowId _ _ | .workflowStarted workflowId
  | .workflowCompleted workflowId _ | .workflowFailed workflowId _
  | .taskStarted workflowId _ _ _ | .taskCompleted workflowId _ | .taskFailed workflowId _ _
  | .approvalRequested workflowId _ | .approvalGranted workflowId _
  | .approvalRejected workflowId _ _ => some workflowId
  | .escalationResolved _ _ => none

/-- One call, with the UUID and the clock reading that it takes. -/
structure Recording where
  call : Call
  stamp : Stamp

def perform (self : AuditService) (r : Recording) : AuditService :=
  match r.call with
  | .record action actor message workflowId metadata =>
    self.record action actor message workflowId metadata r.stamp
  | .workflowCreated workflowId kind source =>
    self.recordWorkflowCreated workflowId kind source r.stamp
  | .workflowStarted workflowId => self.recordWorkflowStarted workflowId r.stamp
  | .workflowCompleted workflowId result => self.recordWorkflowCompleted workflowId result r.stamp
  | .workflowFailed workflowId error => self.recordWorkflowFailed workflowId error r.stamp
  | .taskStarted workflowId taskId agent tool =>
    self.recordTaskStarted workflowId taskId agent tool r.stamp
  | .taskCompleted workflowId taskId => self.recordTaskCompleted workflowId taskId r.stamp
  | .taskFailed workflowId taskId error => self.recordTaskFailed workflowId taskId error r.stamp
  | .approvalRequested workflowId title => self.recordApprovalRequested workflowId title r.stamp
  | .approvalGranted workflowId decidedBy =>
    self.recordApprovalGranted workflowId decidedBy r.stamp
  | .approvalRejected workflowId decidedBy note =>
    self.recordApprovalRejected workflowId decidedBy note r.stamp
  | .escalation workflowId severity reason =>
    self.recordEscalation workflowId severity reason r.stamp
  | .escalationResolved escalationId resolution =>
    self.recordEscalationResolved escalationId resolution r.stamp

/-- The log after these calls. -/
def recordAll (self : AuditService) (rs : List Recording) : AuditService := rs.foldl perform self

/-- The entries that the calls return references to, in order. -/
def returned : AuditService → List Recording → List AuditEntry
  | _, [] => []
  | self, r :: rs => (perform self r).entries.getLast?.toList ++ returned (perform self r) rs

section Calls

variable (self : AuditService) (workflowId : String)

/-- Every call appends one entry, about the call's own subject. -/
theorem perform_entries (r : Recording) :
    ∃ e, (perform self r).entries = self.entries ++ [e] ∧ e.workflowId = r.call.subject := by
  obtain ⟨call, stamp⟩ := r
  cases call <;> exact ⟨_, rfl, rfl⟩

/-- The log holds the returned entries in their order, behind those of before. -/
theorem recordAll_entries (rs : List Recording) :
    (recordAll self rs).entries = self.entries ++ returned self rs := by
  induction rs generalizing self with
  | nil => exact (List.append_nil _).symm
  | cons r rs ih =>
    obtain ⟨e, appended, _⟩ := perform_entries self r
    have later : (recordAll self (r :: rs)).entries =
        (perform self r).entries ++ returned (perform self r) rs := ih (perform self r)
    rw [later, returned, appended, List.getLast?_concat, Option.toList_some, List.append_assoc]

/-- The returned entries about a workflow are as many as the calls about it. -/
theorem returned_length (rs : List Recording) :
    ((returned self rs).filter fun e => e.workflowId == some workflowId).length =
      rs.countP fun r => r.call.subject == some workflowId := by
  induction rs generalizing self with
  | nil => rfl
  | cons r rs ih =>
    obtain ⟨e, appended, subject⟩ := perform_entries self r
    rw [returned, appended, List.getLast?_concat, Option.toList_some, List.filter_append,
      List.length_append, ih, List.countP_cons, ← subject, Nat.add_comm]
    cases about : e.workflowId == some workflowId <;> simp [about]

end Calls

/-- Every entry recorded for a workflow is returned, once and in its order, exactly as long as there
are no more than the default limit of a query. -/
theorem entries_complete_iff (rs : List Recording) (workflowId : String) :
    (recordAll .new rs).entriesForWorkflow workflowId =
        (returned .new rs).filter (fun e => e.workflowId == some workflowId) ↔
      (rs.countP fun r => r.call.subject == some workflowId) ≤ 100 := by
  have held : (recordAll .new rs).entries = returned .new rs := recordAll_entries .new rs
  rw [entriesForWorkflow_eq, held, List.take_eq_self_iff, returned_length]

/-- A workflow that was started a hundred times and then failed: the failure is not returned. -/
def longTrail : List Recording :=
  List.replicate 100 ⟨.workflowStarted "w", ⟨"a", 0⟩⟩ ++ [⟨.workflowFailed "w" "timeout", ⟨"b", 1⟩⟩]

theorem entries_incomplete :
    (∃ e ∈ returned .new longTrail, e.workflowId = some "w" ∧ e.action = .workflowFailed) ∧
      ∀ e ∈ (recordAll .new longTrail).entriesForWorkflow "w", e.action ≠ .workflowFailed := by
  decide +kernel

end BusinessOs.Core.WorkflowEntries
