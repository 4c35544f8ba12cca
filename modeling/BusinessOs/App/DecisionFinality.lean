/- Source: app/services/approval.py, app/services/guardrails.py, app/api/routes_agents.py,
     app/api/routes_admin.py, rust/src/state_machine.rs
   digest: When decision requests, one after another, leave earlier decisions as they are. -/

import BusinessOs.App.Waiting
import BusinessOs.Core.StateMachine

set_option autoImplicit false
set_option relaxedAutoImplicit false

namespace BusinessOs.App.DecisionFinality

open BusinessOs.Lib BusinessOs.Lib.Execution BusinessOs.Lib.UnitOfWork BusinessOs.Lib.Json.Tree
open BusinessOs.App.Models BusinessOs.App.Workflows BusinessOs.App.Guardrails
open BusinessOs.App.Decisions BusinessOs.App.Waiting
open BusinessOs.Core

/-- A decision request, with the time that it reads. -/
structure Event where
  approvalId : String
  request : DecisionRequest
  now : ℤ
  deriving DecidableEq

def perform (db : Database) (e : Event) : Database :=
  decideApproval e.approvalId e.request e.now db

/-- The action that the approval is linked to. -/
def linkedAction (approval : HumanApproval) : Option String :=
  externalActionId approval.proposedAction

def Decided (approval : HumanApproval) : Prop := approval.status ≠ .opened

/-- The four fields that a decision writes are the same. -/
structure SameDecision (a b : HumanApproval) : Prop where
  status : b.status = a.status
  decidedBy : b.decidedBy = a.decidedBy
  decisionNote : b.decisionNote = a.decisionNote
  decidedAt : b.decidedAt = a.decidedAt

/-- Every decision of `db` still stands in `next`, and so does the status of its action. -/
structure Stands (db next : Database) : Prop where
  decisions : ∀ id a, db.approval id = some a → Decided a →
    ∃ b, next.approval id = some b ∧ linkedAction b = linkedAction a ∧ SameDecision a b
  actions : ∀ id a actionId, db.approval id = some a → Decided a →
    linkedAction a = some actionId →
      (next.action actionId).map ExternalAction.status =
        (db.action actionId).map ExternalAction.status

/-- No request changes what an earlier one decided, whatever comes in between. -/
def Final (db : Database) (es : List Event) : Prop :=
  ∀ first between rest, es = first ++ between ++ rest →
    Stands (first.foldl perform db) ((first ++ between).foldl perform db)

/-- The row that a decision leaves of an approval. -/
def decidedRow (e : Event) (row : HumanApproval) : HumanApproval :=
  { row with
    status := e.request.decision
    decidedBy := some e.request.decidedBy
    decisionNote := e.request.decisionNote
    decidedAt := some e.now }

/-- The request finds no approval, or one that is open or that it decides as it is decided; and
where a decided approval has the same action, the action has the status of the new decision. -/
def Respects (db : Database) (e : Event) : Prop :=
  ∀ row, db.approval e.approvalId = some row →
    (Decided row → SameDecision row (decidedRow e row)) ∧
    ∀ id a actionId action, db.approval id = some a → Decided a →
      linkedAction a = some actionId → linkedAction row = some actionId →
      db.action actionId = some action → action.status = expected e.request.decision

section Perform

variable (db : Database) (e : Event)

theorem perform_approval (id : String) : (perform db e).approval id =
    if id = e.approvalId then (db.approval id).map (decidedRow e) else db.approval id := by
  have rows := (decideApproval_rows db e.approvalId e.request e.now).2
  unfold Database.approval perform
  rw [rows]
  cases found : db.approval e.approvalId with
  | none =>
    by_cases own : id = e.approvalId
    · have missing : Table.get HumanApproval.id db.humanApprovals id = none := own ▸ found
      rw [if_pos own, missing]
      rfl
    · rw [if_neg own]
  | some row =>
    have keeps : ∀ other : HumanApproval,
        ((Guardrails.decide (.load row) e.request.decision e.request.decidedBy
          e.request.decisionNote e.now).flush other).id = other.id := fun _ => rfl
    by_cases own : id = e.approvalId
    · subst own
      have present : Table.get HumanApproval.id db.humanApprovals e.approvalId = some row := found
      rw [if_pos rfl, Table.get_update_self keeps, present]
      simp only [Option.map_some, Option.some.injEq, ApprovalCopy.flush, Guardrails.decide,
        ApprovalCopy.load, Tracked.set]
      simp only [flush_of_loaded, Tracked.load, decidedRow]
    · rw [if_neg own]
      exact Table.get_update_of_ne keeps own

/-- The sync after a decision gives the action that the approval names the decision's status. -/
theorem sync_action (approval : ApprovalCopy) (decided : approval.status.current ≠ .opened)
    (actionId : String) :
    (match (externalActionId approval.proposedAction).bind db.action with
      | none => db
      | some action => (syncDecision approval (.load action)).commit db).action actionId =
      if externalActionId approval.proposedAction = some actionId then
        (db.action actionId).map fun action =>
          { action with status := expected approval.status.current }
      else db.action actionId := by
  cases linked : externalActionId approval.proposedAction with
  | none => rfl
  | some own =>
    rw [Option.bind_some]
    cases present : db.action own with
    | none =>
      by_cases same : own = actionId
      · subst same
        rw [if_pos rfl, present]
        rfl
      · rw [if_neg (fun h => same (Option.some.inj h))]
    | some action =>
      obtain ⟨current, loaded, id⟩ := syncDecision_current (.load action) decided
      have key : (syncDecision approval (.load action)).id = own :=
        id.trans (Table.get_mem present).2
      dsimp only
      generalize syncDecision approval (.load action) = synced at current loaded key ⊢
      have keeps : ∀ row : ExternalAction, (synced.flush row).id = row.id := fun _ => rfl
      show Table.get ExternalAction.id
        (Table.update ExternalAction.id db.externalActions synced.id synced.flush) actionId = _
      rw [key]
      by_cases same : own = actionId
      · subst same
        have there : Table.get ExternalAction.id db.externalActions own = some action := present
        have written : synced.status.flush action.status = expected approval.status.current :=
          (flush_of_loaded loaded).trans current
        rw [if_pos rfl, Table.get_update_self keeps, there, present, Option.map_some,
          Option.map_some, ActionCopy.flush, written]
      · rw [if_neg (fun h => same (Option.some.inj h))]
        exact Table.get_update_of_ne keeps (Ne.symm same)

theorem perform_action (actionId : String) : (perform db e).action actionId =
    if (db.approval e.approvalId).bind linkedAction = some actionId then
      (db.action actionId).map fun action =>
        { action with status := expected e.request.decision }
    else db.action actionId := by
  unfold perform decideApproval
  cases found : db.approval e.approvalId with
  | none => rfl
  | some row => exact sync_action _ _ (decision_ne e.request) actionId

end Perform

section Steps

variable {a b c : Database} {db : Database} {e : Event} {es : List Event}

theorem Stands.refl (db : Database) : Stands db db :=
  ⟨fun _ row found _ => ⟨row, found, rfl, rfl, rfl, rfl, rfl⟩, fun _ _ _ _ _ _ => rfl⟩

theorem Stands.trans (ab : Stands a b) (bc : Stands b c) : Stands a c := by
  constructor
  · intro id row found decided
    obtain ⟨next, there, link, same⟩ := ab.decisions id row found decided
    have still : Decided next := by rwa [Decided, same.status]
    obtain ⟨last, here, link', same'⟩ := bc.decisions id next there still
    exact ⟨last, here, link'.trans link, same'.status.trans same.status,
      same'.decidedBy.trans same.decidedBy, same'.decisionNote.trans same.decisionNote,
      same'.decidedAt.trans same.decidedAt⟩
  · intro id row actionId found decided linked
    obtain ⟨next, there, link, same⟩ := ab.decisions id row found decided
    have still : Decided next := by rwa [Decided, same.status]
    exact (bc.actions id next actionId there still (link.trans linked)).trans
      (ab.actions id row actionId found decided linked)

/-- A request leaves every earlier decision standing exactly when it respects them. -/
theorem stands_perform_iff (db : Database) (e : Event) :
    Stands db (perform db e) ↔ Respects db e := by
  constructor
  · intro stands row found
    constructor
    · intro decided
      obtain ⟨next, there, _, same⟩ := stands.decisions e.approvalId row found decided
      rw [perform_approval, if_pos rfl, found] at there
      obtain rfl := Option.some.inj there
      exact same
    · intro id other actionId action there decided linked own present
      have kept := stands.actions id other actionId there decided linked
      have hit : (db.approval e.approvalId).bind linkedAction = some actionId := by
        rw [found]
        exact own
      rw [perform_action, if_pos hit, present] at kept
      exact (Option.some.inj kept).symm
  · intro respects
    constructor
    · intro id row found decided
      by_cases own : id = e.approvalId
      · subst own
        refine ⟨decidedRow e row, ?_, rfl, (respects row found).1 decided⟩
        rw [perform_approval, if_pos rfl, found]
        rfl
      · refine ⟨row, ?_, rfl, rfl, rfl, rfl, rfl⟩
        rw [perform_approval, if_neg own, found]
    · intro id other actionId there decided linked
      rw [perform_action]
      by_cases hit : (db.approval e.approvalId).bind linkedAction = some actionId
      · rw [if_pos hit]
        obtain ⟨row, found, own⟩ := Option.bind_eq_some_iff.mp hit
        cases present : db.action actionId with
        | none => rfl
        | some action =>
          have status := (respects row found).2 id other actionId action there decided linked own
            present
          exact congrArg some status.symm
      · rw [if_neg hit]

/-- A run of requests, each performed when the one before has been answered. -/
def Step (db : Database) (e : Event) (next : Database) : Prop := next = perform db e

/-- Requests that all respect what is decided leave it standing. -/
theorem stands_of_guarded {next : Database} (run : Run (Guarded Respects Step) db es next) :
    Stands db next := by
  induction run with
  | nil db => exact .refl db
  | cons first _ ih =>
    obtain ⟨respects, rfl⟩ := first
    exact ((stands_perform_iff _ _).mpr respects).trans ih

theorem guarded_eq {next : Database} (run : Run (Guarded Respects Step) db es next) :
    next = es.foldl perform db := by
  induction run with
  | nil db => rfl
  | cons first _ ih =>
    obtain ⟨_, rfl⟩ := first
    exact ih

theorem final_of_guarded {next : Database} (run : Run (Guarded Respects Step) db es next) :
    Final db es := by
  rintro first between rest rfl
  obtain ⟨after, both, _⟩ := run.split
  obtain ⟨before, one, two⟩ := both.split
  rw [← guarded_eq one, ← guarded_eq both]
  exact stands_of_guarded two

theorem guarded_of_final (final : Final db es) :
    Run (Guarded Respects Step) db es (es.foldl perform db) := by
  induction es generalizing db with
  | nil => exact .nil db
  | cons e es ih =>
    have respects : Respects db e := (stands_perform_iff db e).mp (final [] [e] es rfl)
    refine .cons ⟨respects, rfl⟩ (ih ?_)
    rintro first between rest rfl
    exact final (e :: first) between rest rfl

end Steps

/-- The decisions of a run of requests are final exactly when each request respects those made
before it. -/
theorem decisions_final_iff (db : Database) (es : List Event) :
    Final db es ↔ Run (Guarded Respects Step) db es (es.foldl perform db) :=
  ⟨guarded_of_final, final_of_guarded⟩

section Machine

/-- What the Rust machine is asked for. -/
def machineDecision (request : DecisionRequest) : Types.ApprovalDecision :=
  if request.status = "approved" then .approved else .rejected

def ofMachine : Types.ApprovalStatus → ApprovalStatus
  | .opened => .opened
  | .approved => .approved
  | .rejected => .rejected

/-- A row and a record of the machine hold the same decision. -/
structure Matches (row : HumanApproval) (record : Types.HumanApproval) : Prop where
  status : row.status = ofMachine record.status
  decidedBy : row.decidedBy = record.decidedBy
  decisionNote : row.decisionNote = record.decisionNote
  decidedAt : row.decidedAt = record.decidedAt

/-- The machine writes a first decision as the service does, and refuses every later one. -/
theorem machine_decides {row : HumanApproval} {record : Types.HumanApproval}
    (same : Matches row record) (e : Event) :
    (Decided row ∧ StateMachine.decideApproval record (machineDecision e.request)
      e.request.decidedBy e.request.decisionNote e.now = .error .alreadyDecided) ∨
    (¬ Decided row ∧ ∃ next, StateMachine.decideApproval record (machineDecision e.request)
      e.request.decidedBy e.request.decisionNote e.now = .ok next ∧
        Matches (decidedRow e row) next) := by
  have open_ : row.status = .opened ↔ record.status = .opened := by
    rw [same.status]
    cases record.status <;> simp [ofMachine]
  unfold Decided StateMachine.decideApproval
  by_cases decided : record.status = .opened
  · right
    rw [if_neg (not_not_intro decided), not_not]
    refine ⟨open_.mpr decided, _, rfl, ?_, rfl, rfl, rfl⟩
    by_cases approve : e.request.status = "approved"
    · simp [decidedRow, DecisionRequest.decision, machineDecision, approve, ofMachine]
    · simp [decidedRow, DecisionRequest.decision, machineDecision, approve, ofMachine]
  · left
    rw [if_pos decided]
    exact ⟨fun same => decided (open_.mp same), rfl⟩

end Machine

section Sample

def sampleApproval : HumanApproval :=
  openApproval "w" "Pay the invoice" "money" (.object [("external_action_id", .string "x")]) "a"

def sampleDb : Database :=
  { Database.empty with
    humanApprovals := [sampleApproval]
    externalActions :=
      [⟨"x", some "w", none, "invoice_pay", "Pay", .null, "critical", true, some "a", .proposed⟩] }

/-- One reviewer approves the payment, another one rejects it afterwards. -/
def approveFirst : Event := ⟨"a", ⟨"approved", "alice", none⟩, 1⟩

def rejectLater : Event := ⟨"a", ⟨"rejected", "bob", some "too late"⟩, 2⟩

/-- The second request rewrites the decision and the action's status. -/
theorem decision_flipped : ¬ Final sampleDb [approveFirst, rejectLater] := by
  intro final
  obtain ⟨_, actions⟩ := final [approveFirst] [rejectLater] [] rfl
  have approved : Decided (decidedRow approveFirst sampleApproval) :=
    show ApprovalStatus.approved ≠ .opened by decide
  have kept := actions "a" _ "x" (by decide) approved (by decide)
  exact absurd kept (by decide)

end Sample

end BusinessOs.App.DecisionFinality
