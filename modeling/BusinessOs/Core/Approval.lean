/- Source: rust/src/approval.rs
   digest: The approval chain's two lists, and the history of requests and decisions they store. -/

import BusinessOs.Core.StateMachine
import Mathlib.Algebra.Ring.Int.Defs
import Mathlib.Algebra.Ring.Nat
import Mathlib.Data.List.Nodup
import Mathlib.Data.Rat.Defs

set_option autoImplicit false
set_option relaxedAutoImplicit false

namespace BusinessOs.Core.Approval

open BusinessOs.Lib.Json.Tree BusinessOs.Core.Types BusinessOs.Core.StateMachine

inductive ApprovalError
  | notFound (id : String)
  | alreadyDecided (id : String)
  deriving DecidableEq, Repr

/-- The average is the exact quotient that the source computes as an `f64`. -/
structure ApprovalStats where
  totalRequested : ℕ
  pendingCount : ℕ
  approvedCount : ℕ
  rejectedCount : ℕ
  avgDecisionTimeSecs : Option ℚ
  deriving DecidableEq

/-- Open requests and decided ones. -/
structure ApprovalService where
  pending : List HumanApproval
  decided : List HumanApproval
  deriving DecidableEq

def ApprovalService.new : ApprovalService := ⟨[], []⟩

section Service

variable (self : ApprovalService)

/-- The id is generated from a fresh UUID. -/
def ApprovalService.requestApproval (workflowId title reason : String) (proposedAction : Value)
    (uuid : String) (now : ℤ) : ApprovalService × HumanApproval :=
  let id := "apr_" ++ uuid
  let approval := HumanApproval.new id workflowId title reason proposedAction now
  ({ self with pending := self.pending ++ [approval] }, approval)

def ApprovalService.decide (approvalId : String) (decision : ApprovalDecision)
    (decidedBy : String) (note : Option String) (now : ℤ) :
    ApprovalService × Except ApprovalError HumanApproval :=
  match self.pending.findIdx? (fun a => a.id == approvalId) with
  | none => (self, .error (.notFound approvalId))
  | some idx =>
    match self.pending[idx]? with
    | none => (self, .error (.notFound approvalId))
    | some approval =>
      if approval.status ≠ .opened then (self, .error (.alreadyDecided approvalId))
      else
        match decideApproval approval decision decidedBy note now with
        | .error _ => (self, .error (.alreadyDecided approvalId))
        | .ok approval =>
          ({ pending := self.pending.eraseIdx idx, decided := self.decided ++ [approval] },
            .ok approval)

def ApprovalService.approve (approvalId decidedBy : String) (note : Option String) (now : ℤ) :
    ApprovalService × Except ApprovalError HumanApproval :=
  self.decide approvalId .approved decidedBy note now

def ApprovalService.reject (approvalId decidedBy note : String) (now : ℤ) :
    ApprovalService × Except ApprovalError HumanApproval :=
  self.decide approvalId .rejected decidedBy (some note) now

def ApprovalService.getById (id : String) : Option HumanApproval :=
  (self.pending.find? (fun a => a.id == id)).or (self.decided.find? (fun a => a.id == id))

/-- Whole seconds from request to decision, rounded towards zero. -/
def decisionTime (a : HumanApproval) : Option ℤ :=
  a.decidedAt.map fun d => (d - a.requestedAt).tdiv 1000000000

def ApprovalService.stats : ApprovalStats :=
  let times := self.decided.filterMap decisionTime
  let count := (self.decided.filter (fun a => a.decidedAt.isSome)).length
  { totalRequested := self.pending.length + self.decided.length
    pendingCount := self.pending.length
    approvedCount := (self.decided.filter (fun a => a.status == .approved)).length
    rejectedCount := (self.decided.filter (fun a => a.status == .rejected)).length
    avgDecisionTimeSecs :=
      if self.decided.isEmpty then none
      else if 0 < count then some (times.sum.bmod (2 ^ 64) / count)
      else none }

end Service

/-! What the two lists are for: the requests made, in order, and the decisions taken, in order. -/

/-- One successful decision. -/
structure Decision where
  id : String
  decision : ApprovalDecision
  decidedBy : String
  note : Option String
  decidedAt : ℤ
  deriving DecidableEq

def Decision.status (d : Decision) : ApprovalStatus :=
  match d.decision with
  | .approved => .approved
  | .rejected => .rejected

/-- The request with the decision written into it. -/
def Decision.record (d : Decision) (request : HumanApproval) : HumanApproval :=
  { request with
    status := d.status
    decision := some d.decision
    decidedBy := some d.decidedBy
    decisionNote := d.note
    note := d.note
    decidedAt := some d.decidedAt
    updatedAt := d.decidedAt }

structure History where
  requests : List HumanApproval
  decisions : List Decision

/-- The requests without a decision, in request order. -/
def History.pending (h : History) : List HumanApproval :=
  h.requests.filter fun a => decide (a.id ∉ h.decisions.map Decision.id)

/-- A request that nobody has decided. -/
def Fresh (a : HumanApproval) : Prop :=
  a.status = .opened ∧ a.decision = none ∧ a.decidedBy = none ∧ a.decidedAt = none

/-- Requests have distinct ids and start open; each decision is the only one on a request. -/
structure History.WellFormed (h : History) : Prop where
  requests : (h.requests.map HumanApproval.id).Nodup
  fresh : ∀ a ∈ h.requests, Fresh a
  decisions : (h.decisions.map Decision.id).Nodup
  known : ∀ d ∈ h.decisions, ∃ a ∈ h.requests, a.id = d.id

/-- The decided list holds, decision by decision, the decided requests. -/
def Decided (requests : List HumanApproval) (d : Decision) (a : HumanApproval) : Prop :=
  ∃ r ∈ requests, r.id = d.id ∧ a = d.record r

/-- The service stores the history. -/
structure Stores (h : History) (s : ApprovalService) : Prop where
  wellFormed : h.WellFormed
  pending : s.pending = h.pending
  decided : List.Forall₂ (Decided h.requests) h.decisions s.decided

theorem new_stores : Stores ⟨[], []⟩ .new :=
  ⟨⟨.nil, by simp, .nil, by simp⟩, rfl, .nil⟩

theorem request_fresh (id workflowId title reason : String) (action : Value) (now : ℤ) :
    Fresh (HumanApproval.new id workflowId title reason action now) := ⟨rfl, rfl, rfl, rfl⟩

/-- Taking the first entry with an id out of a list of distinct ids removes just that id. -/
theorem eraseIdx_eq_filter {as : List HumanApproval} {id : String} {i : ℕ}
    (distinct : (as.map HumanApproval.id).Nodup)
    (found : as.findIdx? (fun a => a.id == id) = some i) :
    as.eraseIdx i = as.filter fun a => decide (a.id ≠ id) := by
  induction as generalizing i with
  | nil => simp at found
  | cons a as ih =>
    simp only [List.map_cons, List.nodup_cons] at distinct
    rw [List.findIdx?_cons] at found
    by_cases same : a.id = id
    · simp only [same, beq_self_eq_true, if_true, Option.some.injEq] at found
      subst found
      have others : as.filter (fun b => decide (b.id ≠ id)) = as := by
        apply List.filter_eq_self.mpr
        intro b member
        have ne : b.id ≠ id := fun h =>
          distinct.1 (same ▸ h ▸ List.mem_map_of_mem member)
        simpa using ne
      rw [List.eraseIdx_cons_zero, List.filter_cons_of_neg (by simp [same]), others]
    · have miss : (a.id == id) = false := by simpa using same
      simp only [miss, Option.map_eq_some_iff, Bool.false_eq_true, if_false] at found
      obtain ⟨j, later, rfl⟩ := found
      rw [List.eraseIdx_cons_succ, ih distinct.2 later,
        List.filter_cons_of_pos (by simpa using same)]

/-- What a decision call does: on a pending id it moves that record, on any other it fails. -/
theorem decide_cases {s : ApprovalService} (open_ : ∀ a ∈ s.pending, a.status = .opened)
    (id : String) (decision : ApprovalDecision) (decidedBy : String) (note : Option String)
    (now : ℤ) :
    (id ∉ s.pending.map HumanApproval.id ∧
      s.decide id decision decidedBy note now = (s, .error (.notFound id))) ∨
    (∃ i a, s.pending.findIdx? (fun b => b.id == id) = some i ∧ s.pending[i]? = some a ∧
      a.id = id ∧ s.decide id decision decidedBy note now =
        (⟨s.pending.eraseIdx i,
            s.decided ++ [Decision.record ⟨id, decision, decidedBy, note, now⟩ a]⟩,
          .ok (Decision.record ⟨id, decision, decidedBy, note, now⟩ a))) := by
  cases found : s.pending.findIdx? (fun a => a.id == id) with
  | none =>
    left
    constructor
    · intro member
      obtain ⟨a, inside, rfl⟩ := List.mem_map.mp member
      have miss := List.findIdx?_eq_none_iff.mp found a inside
      simp at miss
    · simp only [ApprovalService.decide, found]
  | some i =>
    right
    obtain ⟨bound, hit, _⟩ := List.findIdx?_eq_some_iff_getElem.mp found
    have member : s.pending[i] ∈ s.pending := List.getElem_mem bound
    refine ⟨i, s.pending[i], rfl, List.getElem?_eq_getElem bound, by simpa using hit, ?_⟩
    have opened := open_ _ member
    simp only [ApprovalService.decide, found, List.getElem?_eq_getElem bound, decideApproval,
      opened, ne_eq, not_true_eq_false, if_false]
    rfl

section History

variable {h : History} {s : ApprovalService}

theorem Stores.pending_open (stores : Stores h s) : ∀ a ∈ s.pending, a.status = .opened := by
  intro a member
  rw [stores.pending] at member
  exact (stores.wellFormed.fresh a (List.mem_filter.mp member).1).1

/-- A request with a new id joins the end of the pending list. -/
theorem Stores.request (stores : Stores h s) {a : HumanApproval} (fresh : Fresh a)
    (new : a.id ∉ h.requests.map HumanApproval.id) :
    Stores ⟨h.requests ++ [a], h.decisions⟩ { s with pending := s.pending ++ [a] } := by
  obtain ⟨⟨requests, allFresh, decisions, known⟩, pending, decided⟩ := stores
  have undecided : a.id ∉ h.decisions.map Decision.id := by
    intro member
    obtain ⟨d, inside, same⟩ := List.mem_map.mp member
    obtain ⟨r, request, rid⟩ := known d inside
    exact new (List.mem_map.mpr ⟨r, request, rid.trans same⟩)
  refine ⟨⟨?_, ?_, decisions, ?_⟩, ?_, ?_⟩
  · rw [List.map_append, List.nodup_append]
    refine ⟨requests, List.nodup_singleton _, fun x hx y hy same => new ?_⟩
    obtain rfl : y = a.id := by simpa using hy
    exact same ▸ hx
  · intro b member
    rcases List.mem_append.mp member with old | last
    · exact allFresh b old
    · exact List.mem_singleton.mp last ▸ fresh
  · intro d member
    obtain ⟨r, request, rid⟩ := known d member
    exact ⟨r, List.mem_append_left _ request, rid⟩
  · simp only [pending, History.pending, List.filter_append]
    rw [List.filter_cons_of_pos (by simpa using undecided), List.filter_nil]
  · refine decided.imp fun d b => ?_
    rintro ⟨r, request, rid, rfl⟩
    exact ⟨r, List.mem_append_left _ request, rid, rfl⟩

/-- A decision on a pending id moves that record to the end of the decided list. -/
theorem Stores.decide (stores : Stores h s) {d : Decision} {i : ℕ} {a : HumanApproval}
    (found : s.pending.findIdx? (fun b => b.id == d.id) = some i) (member : a ∈ s.pending)
    (own : a.id = d.id) :
    Stores ⟨h.requests, h.decisions ++ [d]⟩
      ⟨s.pending.eraseIdx i, s.decided ++ [d.record a]⟩ := by
  obtain ⟨⟨requests, allFresh, decisions, known⟩, pending, decided⟩ := stores
  have here := pending ▸ member
  obtain ⟨request, undecided⟩ := List.mem_filter.mp here
  have undecided : d.id ∉ h.decisions.map Decision.id := own ▸ of_decide_eq_true undecided
  have distinct : (s.pending.map HumanApproval.id).Nodup := by
    rw [pending]
    exact requests.sublist (List.filter_sublist.map _)
  refine ⟨⟨requests, allFresh, ?_, ?_⟩, ?_, ?_⟩
  · rw [List.map_append, List.nodup_append]
    refine ⟨decisions, List.nodup_singleton _, fun x hx y hy same => undecided ?_⟩
    obtain rfl : y = d.id := by simpa using hy
    exact same ▸ hx
  · intro e inside
    rcases List.mem_append.mp inside with old | last
    · exact known e old
    · exact ⟨a, request, List.mem_singleton.mp last ▸ own⟩
  · show s.pending.eraseIdx i = _
    rw [eraseIdx_eq_filter distinct found, pending, History.pending, List.filter_filter]
    apply List.filter_congr
    intro b _
    simp only [List.map_append, List.map_cons, List.map_nil, List.mem_append,
      List.mem_singleton, not_or, ne_eq, Bool.decide_and]
    exact Bool.and_comm _ _
  · exact List.rel_append decided (.cons ⟨a, request, own, rfl⟩ .nil)

end History

end BusinessOs.Core.Approval
