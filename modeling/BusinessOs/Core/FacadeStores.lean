/- Source: rust/src/pipeline.rs, rust/src/approval.rs, rust/src/audit.rs
   digest: The façade's log and its approval store tell the same history. -/

import BusinessOs.Core.Facade
import Mathlib.Data.List.Perm.Basic

set_option autoImplicit false
set_option relaxedAutoImplicit false

namespace BusinessOs.Core.FacadeStores

open BusinessOs.Lib.Execution
open BusinessOs.Core.Types BusinessOs.Core.Approval BusinessOs.Core.Audit BusinessOs.Core.Facade

universe u

/-- An entry for a decision. -/
def isVerdict (e : AuditEntry) : Bool :=
  e.action == .approvalGranted || e.action == .approvalRejected

/-- An entry for a request about a workflow. -/
def isRequestFor (workflowId : String) (e : AuditEntry) : Bool :=
  e.action == .approvalRequested && e.workflowId == some workflowId

/-- The entry tells of the approval's decision. -/
def Records (e : AuditEntry) (a : HumanApproval) : Prop :=
  e.workflowId = some a.workflowId ∧ a.decision.map verdict = some e.action ∧
    a.decidedBy = some e.actor

variable {ω : Type u}

structure Agrees (os : BusinessOS ω) : Prop where
  /-- The decisions in the log are, in order, those of the decided list. -/
  decisions : List.Forall₂ Records (os.audit.entries.filter isVerdict) os.approvals.decided
  requests : ∀ workflowId, os.audit.entries.countP (isRequestFor workflowId) =
    (os.approvals.pending ++ os.approvals.decided).countP fun a => a.workflowId == workflowId

section Step

variable {os next : BusinessOS ω} {e : Event ω}

theorem isVerdict_of_verdict {entry : AuditEntry} {decision : ApprovalDecision}
    (action : entry.action = verdict decision) :
    isVerdict entry = true ∧ ∀ workflowId, isRequestFor workflowId entry = false := by
  cases decision <;> simp [isVerdict, isRequestFor, action, verdict]

/-- The same log and the same lists agree as before. -/
theorem Agrees.congr (agrees : Agrees os) (audit : next.audit = os.audit)
    (approvals : next.approvals = os.approvals) : Agrees next := by
  constructor
  · rw [audit, approvals]
    exact agrees.decisions
  · rw [audit, approvals]
    exact agrees.requests

/-- Every call keeps the log and the store in agreement. -/
theorem Agrees.change (agrees : Agrees os) (change : Change os e next) : Agrees next := by
  cases change with
  | withAgent kind agent => exact agrees.congr rfl rfl
  | guard => exact agrees.congr rfl rfl
  | submit => exact agrees.congr rfl rfl
  | refuse => exact agrees
  | request workflowId title reason action uuid now stamp =>
    constructor
    · show List.Forall₂ Records ((os.audit.entries ++ [_]).filter isVerdict) os.approvals.decided
      rw [List.filter_append, List.filter_cons_of_neg (by simp [isVerdict]), List.filter_nil,
        List.append_nil]
      exact agrees.decisions
    · intro id
      show (os.audit.entries ++ [_]).countP _ =
        (os.approvals.pending ++ [_] ++ os.approvals.decided).countP _
      have before := agrees.requests id
      simp only [List.countP_append] at before ⊢
      have same : [AuditEntry.mk stamp.id (some workflowId) .approvalRequested "system"
          ("Approval requested: " ++ title) (.object [("title", .string title)])
          stamp.timestamp].countP (isRequestFor id) =
          [HumanApproval.new ("apr_" ++ uuid) workflowId title reason action now].countP
            fun a => a.workflowId == id := by
        simp [isRequestFor, HumanApproval.new]
      omega
  | @decide e d i a stamp entry _ _ at_ _ _ action about actor _ =>
    obtain ⟨counted, other⟩ := isVerdict_of_verdict action
    constructor
    · show List.Forall₂ Records ((os.audit.entries ++ [entry]).filter isVerdict)
        (os.approvals.decided ++ [d.record a])
      rw [List.filter_append, List.filter_cons_of_pos counted, List.filter_nil]
      refine List.rel_append agrees.decisions (.cons ⟨about, ?_, ?_⟩ .nil)
      · rw [action]
        rfl
      · rw [actor]
        rfl
    · intro id
      show (os.audit.entries ++ [entry]).countP _ =
        (os.approvals.pending.eraseIdx i ++ (os.approvals.decided ++ [d.record a])).countP _
      -- The record moves from one list to the other, with its workflow.
      obtain ⟨bound, here⟩ := List.getElem?_eq_some_iff.mp at_
      have moved := (List.getElem_cons_eraseIdx_perm bound).countP_eq
        fun b : HumanApproval => b.workflowId == id
      have before := agrees.requests id
      rw [here, List.countP_cons] at moved
      rw [List.countP_append] at before
      rw [List.countP_append, List.countP_append, List.countP_append, List.countP_singleton,
        List.countP_singleton, other id]
      have same : (d.record a).workflowId = a.workflowId := rfl
      rw [same]
      simp only [Bool.false_eq_true, if_false]
      omega

/-- A decision call that fails changes nothing. -/
theorem refused_unchanged {error : ApprovalError} (change : Change os e next)
    (failed : e.reply = .decided (.error error)) : next = os := by
  cases change with
  | withAgent => cases failed
  | guard _ _ _ _ _ decided => exact absurd failed (decided _)
  | submit => cases failed
  | request => cases failed
  | refuse => rfl
  | decide _ _ _ _ reply => cases reply.symm.trans failed

end Step

/-- In every run of façade calls the log agrees with the store, and a call that fails appends
nothing to it. -/
theorem audit_agrees {config : BusinessOSConfig} {es : List (Event ω)} {os : BusinessOS ω}
    (run : Run Step (BusinessOS.new config) es os) :
    Agrees os ∧ ∀ e next error, Step os e next → e.reply = .decided (.error error) →
      next.audit = os.audit := by
  have keep : ∀ (s : BusinessOS ω) (e : Event ω) (t : BusinessOS ω),
      PendingOpen s ∧ Agrees s → Step s e t → PendingOpen t ∧ Agrees t := by
    intro s e t both step
    have change := step_change both.1 step
    exact ⟨change.pendingOpen both.1, both.2.change change⟩
  have start : PendingOpen (.new config : BusinessOS ω) ∧ Agrees (.new config : BusinessOS ω) := by
    refine ⟨?_, .nil, fun _ => rfl⟩
    intro a member
    cases member
  obtain ⟨open_, agrees⟩ := run.invariant keep start
  refine ⟨agrees, ?_⟩
  intro e next error step failed
  rw [refused_unchanged (step_change open_ step) failed]

section Sample

def sampleRequest : Call Unit := .requestApproval "wf-1" "Refund" "money" .null "a" 1 ⟨"e1", 1⟩

def sampleApproval : Call Unit := .approve "apr_a" "alice" 2 ⟨"e2", 2⟩

/-- The second decision on the approval comes too late. -/
def sampleLate : Call Unit := .reject "apr_a" "bob" "no" 3 ⟨"e3", 3⟩

def requested : BusinessOS Unit :=
  ((BusinessOS.new .default).requestApproval "wf-1" "Refund" "money" .null "a" 1 ⟨"e1", 1⟩).1

def approved : BusinessOS Unit := (requested.approve "apr_a" "alice" 2 ⟨"e2", 2⟩).1

theorem audit_agrees_sample :
    Agrees approved ∧ ∀ (e : Event Unit) (next : BusinessOS Unit) (error : ApprovalError),
      Step approved e next → e.reply = .decided (.error error) → next.audit = approved.audit := by
  have first : Step (.new .default) ⟨sampleRequest, .requested
      (.new "apr_a" "wf-1" "Refund" "money" .null 1)⟩ requested := rfl
  have second : Step requested
      ⟨sampleApproval, .decided (requested.approve "apr_a" "alice" 2 ⟨"e2", 2⟩).2⟩ approved := rfl
  have late : Step approved ⟨sampleLate, .decided (.error (.notFound "apr_a"))⟩ approved := rfl
  exact audit_agrees (.cons first (.cons second (.single late)))

end Sample

end BusinessOs.Core.FacadeStores
