/- Source: rust/src/approval.rs
   digest: Every run of request and decision calls keeps the two lists a partition of requests. -/

import BusinessOs.Core.Approval
import BusinessOs.Lib.Execution
import Mathlib.Data.List.Count

set_option autoImplicit false
set_option relaxedAutoImplicit false

namespace BusinessOs.Core.ApprovalRuns

open BusinessOs.Lib.Execution BusinessOs.Lib.Json.Tree
open BusinessOs.Core.Types BusinessOs.Core.Approval

/-- The calls that change the service; a request names the UUID that it generates. -/
inductive Call
  | requestApproval (workflowId title reason : String) (proposedAction : Value) (uuid : String)
  | approve (approvalId decidedBy : String) (note : Option String)
  | reject (approvalId decidedBy note : String)
  deriving DecidableEq

inductive Reply
  | requested (approval : HumanApproval)
  | decided (result : Except ApprovalError HumanApproval)
  deriving DecidableEq

/-- One call with the clock it read and the answer it got. -/
structure Event where
  call : Call
  now : ℤ
  reply : Reply
  deriving DecidableEq

def perform (s : ApprovalService) (now : ℤ) : Call → ApprovalService × Reply
  | .requestApproval workflowId title reason action uuid =>
    let (s, approval) := s.requestApproval workflowId title reason action uuid now
    (s, .requested approval)
  | .approve id decidedBy note =>
    let (s, result) := s.approve id decidedBy note now
    (s, .decided result)
  | .reject id decidedBy note =>
    let (s, result) := s.reject id decidedBy note now
    (s, .decided result)

def Step (s : ApprovalService) (e : Event) (t : ApprovalService) : Prop :=
  perform s e.now e.call = (t, e.reply)

instance (s : ApprovalService) (e : Event) (t : ApprovalService) : Decidable (Step s e t) :=
  inferInstanceAs (Decidable (perform s e.now e.call = (t, e.reply)))

/-- The UUID that the call generates. -/
def Event.generated (e : Event) : Option String :=
  match e.call with
  | .requestApproval _ _ _ _ uuid => some uuid
  | _ => none

/-- The approval that the call requested, as it was returned. -/
def Event.requested (e : Event) : Option HumanApproval :=
  match e.reply with
  | .requested approval => some approval
  | .decided _ => none

/-- The decision that the call took, when it succeeded. -/
def Event.decision (e : Event) : Option Decision :=
  match e.call, e.reply with
  | .approve id decidedBy note, .decided (.ok _) => some ⟨id, .approved, decidedBy, note, e.now⟩
  | .reject id decidedBy note, .decided (.ok _) =>
    some ⟨id, .rejected, decidedBy, some note, e.now⟩
  | _, _ => none

/-- The approval that a decision call names. -/
def Event.target (e : Event) : Option String :=
  match e.call with
  | .requestApproval _ _ _ _ _ => none
  | .approve id _ _ | .reject id _ _ => some id

def requests (es : List Event) : List HumanApproval := es.filterMap Event.requested

def decisions (es : List Event) : List Decision := es.filterMap Event.decision

/-- The laws of the store after the calls `es`. -/
structure StoreLaw (es : List Event) (s : ApprovalService) : Prop where
  /-- No id occurs twice in the two lists. -/
  once : ((s.pending ++ s.decided).map HumanApproval.id).Nodup
  /-- The two lists together hold the requested ids. -/
  partition : ((s.pending ++ s.decided).map HumanApproval.id).Perm
    ((requests es).map HumanApproval.id)
  /-- The pending list holds the undecided requests as they were made, in request order. -/
  pending : s.pending = (requests es).filter fun a => decide (a.id ∉ (decisions es).map Decision.id)
  open_ : ∀ a ∈ s.pending,
    a.status = .opened ∧ a.decision = none ∧ a.decidedBy = none ∧ a.decidedAt = none
  /-- The decided list holds, in decision order, the request of each successful decision with
  that decision written into it. -/
  decided : List.Forall₂ (fun d a => ∃ r ∈ requests es, r.id = d.id ∧ a = d.record r)
    (decisions es) s.decided
  /-- No later call changes a decided record. -/
  final : ∀ fs t, Run Step s fs t → s.decided <+: t.decided
  /-- A decision call succeeds on a pending id, and on any other changes nothing and says so. -/
  answers : ∀ e t id, Step s e t → e.target = some id →
    (id ∈ s.pending.map HumanApproval.id ∧ ∃ a, e.reply = .decided (.ok a)) ∨
    (id ∉ s.pending.map HumanApproval.id ∧ t = s ∧ e.reply = .decided (.error (.notFound id)))
  lookup : ∀ id, (∃ a, s.getById id = some a ∧ a.id = id ∧ a ∈ s.pending ++ s.decided) ↔
    id ∈ (requests es).map HumanApproval.id
  absent : ∀ id, s.getById id = none ↔ id ∉ (requests es).map HumanApproval.id
  stats : s.stats.totalRequested = (requests es).length ∧ s.stats.totalRequested =
    s.stats.pendingCount + s.stats.approvedCount + s.stats.rejectedCount

/-- Both decision calls are the internal one with the call's own verdict and note. -/
theorem perform_decide {s : ApprovalService} {e : Event} {id : String}
    (target : e.target = some id) :
    ∃ decision decidedBy note, perform s e.now e.call =
        ((s.decide id decision decidedBy note e.now).1,
          .decided (s.decide id decision decidedBy note e.now).2) ∧
      e.decision = match e.reply with
        | .decided (.ok _) => some ⟨id, decision, decidedBy, note, e.now⟩
        | _ => none := by
  obtain ⟨call, now, reply⟩ := e
  cases call with
  | requestApproval _ _ _ _ _ => simp [Event.target] at target
  | approve approvalId decidedBy note =>
    obtain rfl : approvalId = id := by simpa [Event.target] using target
    refine ⟨.approved, decidedBy, note, rfl, ?_⟩
    rcases reply with _ | (_ | _) <;> rfl
  | reject approvalId decidedBy note =>
    obtain rfl : approvalId = id := by simpa [Event.target] using target
    refine ⟨.rejected, decidedBy, some note, rfl, ?_⟩
    rcases reply with _ | (_ | _) <;> rfl

/-- What a decision call does to a service whose pending records are open. -/
theorem step_decide {s t : ApprovalService} {e : Event} {id : String}
    (open_ : ∀ a ∈ s.pending, a.status = .opened) (step : Step s e t)
    (target : e.target = some id) :
    (id ∉ s.pending.map HumanApproval.id ∧ t = s ∧
      e.reply = .decided (.error (.notFound id)) ∧ e.decision = none) ∨
    (∃ d i a, d.id = id ∧ s.pending.findIdx? (fun b => b.id == d.id) = some i ∧
      a ∈ s.pending ∧ a.id = d.id ∧ e.decision = some d ∧ e.reply = .decided (.ok (d.record a)) ∧
      t = ⟨s.pending.eraseIdx i, s.decided ++ [d.record a]⟩) := by
  obtain ⟨decision, decidedBy, note, performed, decided⟩ := perform_decide (s := s) target
  unfold Step at step
  rw [performed] at step
  rcases decide_cases open_ id decision decidedBy note e.now with
    ⟨absent, outcome⟩ | ⟨i, a, found, member, own, outcome⟩
  · rw [outcome] at step
    obtain ⟨rfl, reply⟩ := Prod.mk.inj step
    rw [← reply] at decided
    exact .inl ⟨absent, rfl, reply.symm, decided⟩
  · rw [outcome] at step
    obtain ⟨rfl, reply⟩ := Prod.mk.inj step
    rw [← reply] at decided
    exact .inr ⟨_, i, a, rfl, found, List.mem_of_getElem? member, own, decided, reply.symm, rfl⟩

/-- A call without a target requests an approval. -/
theorem step_request {s t : ApprovalService} {e : Event} (step : Step s e t)
    (target : e.target = none) :
    ∃ a uuid, Fresh a ∧ a.id = "apr_" ++ uuid ∧ e.generated = some uuid ∧
      e.requested = some a ∧ e.decision = none ∧ t = { s with pending := s.pending ++ [a] } := by
  obtain ⟨call, now, reply⟩ := e
  cases call with
  | requestApproval workflowId title reason action uuid =>
    obtain ⟨rfl, answer⟩ := Prod.mk.inj step
    dsimp only at answer
    subst answer
    exact ⟨_, uuid, request_fresh _ _ _ _ _ _, rfl, rfl, rfl, rfl, rfl⟩
  | approve _ _ _ => simp [Event.target] at target
  | reject _ _ _ => simp [Event.target] at target

/-- A decision call requests nothing and generates nothing. -/
theorem target_silent {s t : ApprovalService} {e : Event} {id : String} (step : Step s e t)
    (target : e.target = some id) : e.requested = none ∧ e.generated = none := by
  obtain ⟨_, _, _, performed, _⟩ := perform_decide (s := s) target
  unfold Step at step
  rw [performed] at step
  obtain ⟨_, reply⟩ := Prod.mk.inj step
  constructor
  · rw [Event.requested, ← reply]
  · cases call : e.call <;> simp_all [Event.target, Event.generated]

/-- No UUID is generated twice, and none gives an id that is already requested. -/
def Unused (rs : List HumanApproval) (es : List Event) : Prop :=
  (es.filterMap Event.generated).Nodup ∧
    ∀ uuid ∈ es.filterMap Event.generated, "apr_" ++ uuid ∉ rs.map HumanApproval.id

private theorem prefix_injective {u v : String} (same : "apr_" ++ u = "apr_" ++ v) : u = v := by
  have texts := congrArg String.toList same
  rw [String.toList_append, String.toList_append] at texts
  exact String.toList_injective (List.append_cancel_left texts)

theorem run_stores {s t : ApprovalService} {es : List Event} (run : Run Step s es t)
    {rs : List HumanApproval} {ds : List Decision} (stores : Stores ⟨rs, ds⟩ s)
    (unused : Unused rs es) : Stores ⟨rs ++ requests es, ds ++ decisions es⟩ t := by
  induction run generalizing rs ds with
  | nil s => simpa [requests, decisions] using stores
  | @cons s r t e es step rest ih =>
    obtain ⟨distinct, new⟩ := unused
    cases target : e.target with
    | none =>
      obtain ⟨a, uuid, fresh, id, generated, requested, undecided, rfl⟩ :=
        step_request step target
      simp only [List.filterMap_cons, generated, List.nodup_cons] at distinct new
      have unknown : a.id ∉ rs.map HumanApproval.id := id ▸ new uuid List.mem_cons_self
      have later : Unused (rs ++ [a]) es := by
        refine ⟨distinct.2, fun v member known => ?_⟩
        rw [List.map_append, List.mem_append] at known
        rcases known with old | last
        · exact new v (List.mem_cons_of_mem _ member) old
        · rw [List.map_singleton, List.mem_singleton, id] at last
          exact distinct.1 (prefix_injective last ▸ member)
      have tail := ih (stores.request fresh unknown) later
      simpa [requests, decisions, requested, undecided] using tail
    | some id =>
      obtain ⟨unrequested, ungenerated⟩ := target_silent step target
      simp only [List.filterMap_cons, ungenerated] at distinct new
      rcases step_decide stores.pending_open step target with
        ⟨_, rfl, _, undecided⟩ | ⟨d, i, a, _, found, member, own, taken, _, rfl⟩
      · simpa [requests, decisions, unrequested, undecided] using ih stores ⟨distinct, new⟩
      · have tail := ih (stores.decide found member own) ⟨distinct, new⟩
        simpa [requests, decisions, unrequested, taken] using tail

/-- Decided records are only ever appended. -/
theorem step_final {s t : ApprovalService} {e : Event} (step : Step s e t) :
    s.decided <+: t.decided := by
  cases target : e.target with
  | none =>
    obtain ⟨_, _, _, _, _, _, _, rfl⟩ := step_request step target
    exact List.prefix_rfl
  | some id =>
    obtain ⟨decision, decidedBy, note, performed, _⟩ := perform_decide (s := s) target
    unfold Step at step
    rw [performed] at step
    obtain ⟨rfl, _⟩ := Prod.mk.inj step
    unfold ApprovalService.decide
    split
    · exact List.prefix_rfl
    · split
      · exact List.prefix_rfl
      · split_ifs
        · exact List.prefix_rfl
        · split
          · exact List.prefix_rfl
          · exact List.prefix_append _ _

theorem run_final {s t : ApprovalService} {es : List Event} (run : Run Step s es t) :
    s.decided <+: t.decided :=
  run.invariant (I := fun r => s.decided <+: r.decided)
    (fun _ _ _ held step => held.trans (step_final step)) List.prefix_rfl

section Records

variable {rs : List HumanApproval} {ds : List Decision} {as : List HumanApproval}

theorem decided_ids (decided : List.Forall₂ (Decided rs) ds as) :
    as.map HumanApproval.id = ds.map Decision.id := by
  induction decided with
  | nil => rfl
  | cons first _ ih =>
    obtain ⟨r, _, rid, rfl⟩ := first
    rw [List.map_cons, List.map_cons, ih]
    exact congrArg (· :: _) rid

/-- Every decided record is approved or rejected. -/
theorem decided_verdicts (decided : List.Forall₂ (Decided rs) ds as) :
    as.length = (as.filter (fun a => a.status == .approved)).length +
      (as.filter (fun a => a.status == .rejected)).length := by
  induction decided with
  | nil => rfl
  | cons first _ ih =>
    obtain ⟨r, _, _, rfl⟩ := first
    simp only [List.length_cons, List.filter_cons, ih, Decision.record, Decision.status]
    split <;> simp <;> omega

end Records

theorem getById_some {s : ApprovalService} {id : String} {a : HumanApproval}
    (found : s.getById id = some a) : a.id = id ∧ a ∈ s.pending ++ s.decided := by
  rcases Option.or_eq_some_iff.mp found with waiting | ⟨_, closed⟩
  · exact ⟨by simpa using List.find?_some waiting,
      List.mem_append_left _ (List.mem_of_find?_eq_some waiting)⟩
  · exact ⟨by simpa using List.find?_some closed,
      List.mem_append_right _ (List.mem_of_find?_eq_some closed)⟩

section Law

variable {h : History} {s : ApprovalService} (stores : Stores h s)

include stores

theorem stores_once : ((s.pending ++ s.decided).map HumanApproval.id).Nodup := by
  rw [List.map_append, decided_ids stores.decided, List.nodup_append]
  refine ⟨?_, stores.wellFormed.decisions, ?_⟩
  · rw [stores.pending]
    exact stores.wellFormed.requests.sublist (List.filter_sublist.map _)
  · rintro x hx y hy rfl
    rw [stores.pending] at hx
    obtain ⟨a, inside, rfl⟩ := List.mem_map.mp hx
    exact of_decide_eq_true (List.mem_filter.mp inside).2 hy

theorem stores_partition : ((s.pending ++ s.decided).map HumanApproval.id).Perm
    (h.requests.map HumanApproval.id) := by
  refine (List.perm_ext_iff_of_nodup (stores_once stores) stores.wellFormed.requests).mpr ?_
  intro id
  rw [List.map_append, decided_ids stores.decided, List.mem_append]
  constructor
  · rintro (waiting | closed)
    · rw [stores.pending] at waiting
      exact (List.filter_sublist.map _).subset waiting
    · obtain ⟨d, inside, rfl⟩ := List.mem_map.mp closed
      obtain ⟨a, request, own⟩ := stores.wellFormed.known d inside
      exact List.mem_map.mpr ⟨a, request, own⟩
  · intro requested
    by_cases closed : id ∈ h.decisions.map Decision.id
    · exact .inr closed
    · left
      obtain ⟨a, request, rfl⟩ := List.mem_map.mp requested
      rw [stores.pending]
      exact List.mem_map_of_mem (List.mem_filter.mpr ⟨request, decide_eq_true closed⟩)

theorem getById_none (id : String) :
    s.getById id = none ↔ id ∉ h.requests.map HumanApproval.id := by
  rw [← (stores_partition stores).mem_iff]
  simp only [ApprovalService.getById, Option.or_eq_none_iff, List.find?_eq_none, List.map_append,
    List.mem_append, List.mem_map, not_or, not_exists, not_and, beq_iff_eq]

theorem stores_stats : s.stats.totalRequested = h.requests.length ∧ s.stats.totalRequested =
    s.stats.pendingCount + s.stats.approvedCount + s.stats.rejectedCount := by
  constructor
  · have lengths := (stores_partition stores).length_eq
    simpa [ApprovalService.stats] using lengths
  · have verdicts := decided_verdicts stores.decided
    simp only [ApprovalService.stats]
    omega

end Law

/-- The laws of the approval store hold after every run with fresh UUIDs. -/
theorem store_law (es : List Event) (s : ApprovalService) (run : Run Step .new es s)
    (fresh : (es.filterMap Event.generated).Nodup) : StoreLaw es s := by
  have stores : Stores ⟨requests es, decisions es⟩ s := by
    simpa using run_stores run new_stores ⟨fresh, by simp⟩
  refine
    { once := stores_once stores
      partition := stores_partition stores
      pending := stores.pending
      open_ := ?_
      decided := stores.decided
      final := fun _ _ later => run_final later
      answers := ?_
      lookup := ?_
      absent := getById_none stores
      stats := stores_stats stores }
  · intro a member
    rw [stores.pending] at member
    exact stores.wellFormed.fresh a (List.mem_filter.mp member).1
  · intro e t id step target
    rcases step_decide stores.pending_open step target with
      ⟨absent, same, reply, _⟩ | ⟨d, i, a, rfl, _, member, own, _, reply, _⟩
    · exact .inr ⟨absent, same, reply⟩
    · exact .inl ⟨own ▸ List.mem_map_of_mem member, _, reply⟩
  · intro id
    constructor
    · rintro ⟨a, found, _, _⟩
      by_contra missing
      rw [(getById_none stores id).mpr missing] at found
      cases found
    · intro requested
      cases found : s.getById id with
      | none => exact absurd requested ((getById_none stores id).mp found)
      | some a => exact ⟨a, rfl, getById_some found⟩

def sampleEmail : HumanApproval := .new "apr_a" "wf-1" "Send email" "outbound" .null 0

def sampleRefund : HumanApproval := .new "apr_b" "wf-1" "Refund" "money" .null 5

def sampleDecision : Decision := ⟨"apr_b", .approved, "alice", none, 9⟩

/-- Two requests, an approval of the second, and a rejection of it that comes too late. -/
theorem store_law_sample :
    StoreLaw
      [⟨.requestApproval "wf-1" "Send email" "outbound" .null "a", 0, .requested sampleEmail⟩,
        ⟨.requestApproval "wf-1" "Refund" "money" .null "b", 5, .requested sampleRefund⟩,
        ⟨.approve "apr_b" "alice" none, 9, .decided (.ok (sampleDecision.record sampleRefund))⟩,
        ⟨.reject "apr_b" "bob" "no", 12, .decided (.error (.notFound "apr_b"))⟩]
      ⟨[sampleEmail], [sampleDecision.record sampleRefund]⟩ := by
  have first : Step .new
      ⟨.requestApproval "wf-1" "Send email" "outbound" .null "a", 0, .requested sampleEmail⟩
      ⟨[sampleEmail], []⟩ := by decide
  have second : Step ⟨[sampleEmail], []⟩
      ⟨.requestApproval "wf-1" "Refund" "money" .null "b", 5, .requested sampleRefund⟩
      ⟨[sampleEmail, sampleRefund], []⟩ := by decide
  have third : Step ⟨[sampleEmail, sampleRefund], []⟩
      ⟨.approve "apr_b" "alice" none, 9, .decided (.ok (sampleDecision.record sampleRefund))⟩
      ⟨[sampleEmail], [sampleDecision.record sampleRefund]⟩ := by decide
  have late : Step ⟨[sampleEmail], [sampleDecision.record sampleRefund]⟩
      ⟨.reject "apr_b" "bob" "no", 12, .decided (.error (.notFound "apr_b"))⟩
      ⟨[sampleEmail], [sampleDecision.record sampleRefund]⟩ := by decide
  exact store_law _ _ (.cons first (.cons second (.cons third (.single late)))) (by decide)

end BusinessOs.Core.ApprovalRuns
