/- Source: app/services/approval.py, app/services/guardrails.py, app/agents/orchestrator.py,
     app/api/routes_agents.py, app/api/routes_admin.py
   digest: When every workflow that waits for a human has an approval to decide. -/

import BusinessOs.App.Decisions
import BusinessOs.App.Orchestrator

set_option autoImplicit false
set_option relaxedAutoImplicit false

namespace BusinessOs.App.Waiting

open BusinessOs.Lib BusinessOs.Lib.Execution BusinessOs.Lib.UnitOfWork BusinessOs.Lib.Json.Tree
open BusinessOs.App.Models BusinessOs.App.Workflows BusinessOs.App.Company
open BusinessOs.App.Guardrails BusinessOs.App.Decisions
open BusinessOs.App.Sessions BusinessOs.App.Orchestrator

/-- A decision request from its first read to its last commit; it answers 404 for no approval. -/
def decideApproval (approvalId : String) (request : DecisionRequest) (now : ℤ) (db : Database) :
    Database :=
  match db.approval approvalId with
  | none => db
  | some row =>
    let approval := Guardrails.decide (.load row) request.decision request.decidedBy
      request.decisionNote now
    let db := approval.commit db
    let db := { db with auditLogs := db.auditLogs ++ [decideRecord approval request.decidedBy] }
    match (externalActionId approval.proposedAction).bind db.action with
    | none => db
    | some action => (syncDecision approval (.load action)).commit db

/-- Completed operations. -/
inductive Event
  | create (creation : Creation)
  | run (id : String) (behaviour : Behaviour) (escalationId : String)
  | decide (approvalId : String) (request : DecisionRequest) (now : ℤ)

/-- Generated ids are new. -/
def Step (db : CompanyDatabase) (e : Event) (next : CompanyDatabase) : Prop :=
  match e with
  | .create creation =>
    creation.id ∉ db.workflows.map Workflow.id ∧ next = createWorkflow creation db
  | .run id behaviour escalationId =>
    ∃ row, db.workflow id = some row ∧
      ((db.humanApprovals ++ rowsIn Row.approval? (behaviour.statements id)).map
        HumanApproval.id).Nodup ∧
      next = runWorkflow (.load row) behaviour escalationId db
  | .decide approvalId request now =>
    next = { db with toDatabase := decideApproval approvalId request now db.toDatabase }

def Initial (db : CompanyDatabase) : Prop := db.workflows = [] ∧ db.humanApprovals = []

def NobodyWaitsAlone (db : CompanyDatabase) : Prop :=
  ∀ row ∈ db.workflows, row.status = .waitingForHuman → SomeoneAsked row.id db

/-- A decision leaves every waiting workflow an open approval that it does not decide. -/
def LeavesOneOpen (db : CompanyDatabase) : Event → Prop
  | .decide approvalId _ _ => ∀ row ∈ db.workflows, row.status = .waitingForHuman →
    ∃ approval ∈ db.humanApprovals, OpenFor row.id approval ∧ approval.id ≠ approvalId
  | _ => True

structure Inv (db : CompanyDatabase) : Prop where
  workflowKeys : (db.workflows.map Workflow.id).Nodup
  approvalKeys : (db.humanApprovals.map HumanApproval.id).Nodup
  asked : NobodyWaitsAlone db

/-- The decision request is the one of the interleaved model, when no other request is at work. -/
theorem decide_alone {R : Type} [DecidableEq R] {requests : R → DecisionRequest}
    {approvalId : String} {s t : Decisions.World R} {i : R} {now : ℤ}
    (waiting : s.phase i = .waiting)
    (taken : [Decisions.Event.read i, .decide i now, .record i, .readAction i, .sync i].foldlM
      (Decisions.step requests approvalId) s = some t) :
    t.db = decideApproval approvalId (requests i) now s.db := by
  unfold decideApproval
  cases found : s.db.approval approvalId with
  | none => simp [Decisions.step, waiting, found] at taken
  | some row =>
    have moved : ∀ (w : Decisions.World R) (db : Database) (phase : Phase),
        (w.move i db phase).db = db := fun _ _ _ => rfl
    simp only [List.foldlM_cons, Decisions.step, waiting, found, moved, Option.bind_eq_bind,
      Option.bind_some, Interleaving.move_self] at taken
    dsimp only
    split at taken
    · simp [Interleaving.move_self] at taken
    · rename_i action acts
      simp only [Interleaving.move_self, List.foldlM_nil, Option.bind_some, Option.pure_def,
        Option.some.injEq] at taken
      subst taken
      split
      · rename_i silent
        cases silent.symm.trans acts
      · rename_i other same
        obtain rfl : other = action := Option.some.inj (same.symm.trans acts)
        rfl

section Decide

variable (db : Database) (approvalId : String) (request : DecisionRequest) (now : ℤ)

theorem decision_ne : request.decision ≠ .opened := by
  unfold DecisionRequest.decision
  split <;> simp

/-- A decision writes no workflow, and one approval's row. -/
theorem decideApproval_rows : (decideApproval approvalId request now db).workflows = db.workflows ∧
    (decideApproval approvalId request now db).humanApprovals = match db.approval approvalId with
      | none => db.humanApprovals
      | some row => Table.update HumanApproval.id db.humanApprovals approvalId
        (Guardrails.decide (.load row) request.decision request.decidedBy request.decisionNote
          now).flush := by
  unfold decideApproval
  cases found : db.approval approvalId with
  | none => exact ⟨rfl, rfl⟩
  | some row =>
    have own : row.id = approvalId := (Table.get_mem found).2
    subst own
    dsimp only
    split <;> exact ⟨rfl, rfl⟩

/-- What is open after a decision was open before, and is not what it decides. -/
theorem decideApproval_open (keys : (db.humanApprovals.map HumanApproval.id).Nodup)
    {id : String} {approval : HumanApproval} :
    approval ∈ (decideApproval approvalId request now db).humanApprovals ∧ OpenFor id approval ↔
      approval ∈ db.humanApprovals ∧ OpenFor id approval ∧ approval.id ≠ approvalId := by
  rw [(decideApproval_rows db approvalId request now).2]
  cases found : db.approval approvalId with
  | none =>
    have other : approval ∈ db.humanApprovals → approval.id ≠ approvalId := by
      rintro member rfl
      have present := Table.get_of_mem keys member
      rw [Database.approval, present] at found
      cases found
    constructor
    · rintro ⟨member, isOpen⟩
      exact ⟨member, isOpen, other member⟩
    · rintro ⟨member, isOpen, _⟩
      exact ⟨member, isOpen⟩
  | some row =>
    constructor
    · rintro ⟨member, isOpen⟩
      rcases Table.mem_update member with ⟨inside, other⟩ | ⟨old, inside, own, rfl⟩
      · exact ⟨inside, isOpen, other⟩
      · have same : old = row := by
          have present := Table.get_of_mem keys inside
          rw [own] at present
          exact Option.some.inj (present.symm.trans found)
        subst same
        have status : ((Guardrails.decide (.load old) request.decision request.decidedBy
            request.decisionNote now).flush old).status = request.decision :=
          flush_of_loaded rfl
        exact absurd (status.symm.trans isOpen.2) (decision_ne request)
    · rintro ⟨member, isOpen, other⟩
      refine ⟨?_, isOpen⟩
      exact List.mem_map.mpr ⟨approval, member, if_neg other⟩

theorem decideApproval_keys :
    ((decideApproval approvalId request now db).humanApprovals.map HumanApproval.id) =
      db.humanApprovals.map HumanApproval.id := by
  rw [(decideApproval_rows db approvalId request now).2]
  cases db.approval approvalId with
  | none => rfl
  | some row => exact Table.keys_update fun _ => rfl

end Decide

section Steps

variable {db next : CompanyDatabase} {e : Event} {es : List Event}

theorem inv_create {creation : Creation} (inv : Inv db)
    (new : creation.id ∉ db.workflows.map Workflow.id) : Inv (createWorkflow creation db) := by
  refine ⟨Table.nodup_append inv.workflowKeys new, inv.approvalKeys, ?_⟩
  intro row member waiting
  rcases List.mem_append.mp member with old | added
  · exact inv.asked row old waiting
  · obtain rfl := List.mem_singleton.mp added
    cases waiting

/-- A completed run leaves its workflow waiting only behind an approval that it asked for. -/
theorem inv_run {row : Workflow} {behaviour : Behaviour} {escalationId : String} (inv : Inv db)
    (found : db.workflow row.id = some row)
    (new : ((db.humanApprovals ++ rowsIn Row.approval? (behaviour.statements row.id)).map
      HumanApproval.id).Nodup) :
    Inv (runWorkflow (.load row) behaviour escalationId db) := by
  cases supported : (WorkflowCopy.load row).supported with
  | false => rwa [runWorkflow_unsupported behaviour escalationId supported]
  | true =>
    obtain ⟨change, keeps, rows⟩ := runWorkflow_rows db row behaviour escalationId
    have approvals := runWorkflow_approvals db behaviour escalationId supported
    have keys : ((runWorkflow (.load row) behaviour escalationId db).workflows.map
        Workflow.id).Nodup := by
      rw [rows, Table.keys_update keeps]
      exact inv.workflowKeys
    refine ⟨keys, ?_, ?_⟩
    · rw [approvals]
      exact new
    · intro other member waiting
      have present := Table.get_of_mem keys member
      unfold SomeoneAsked
      rw [approvals]
      by_cases own : other.id = row.id
      · obtain ⟨next, after, status, _⟩ :=
          runWorkflow_row behaviour escalationId found supported
        rw [own] at present ⊢
        obtain rfl : next = other := Option.some.inj (after.symm.trans present)
        rw [status] at waiting
        obtain ⟨approval, asked, isOpen⟩ := finalStatus_waiting waiting
        exact ⟨approval, List.mem_append_right _ asked, isOpen⟩
      · have same : (runWorkflow (.load row) behaviour escalationId db).workflow other.id =
            db.workflow other.id := runWorkflow_of_ne behaviour escalationId own
        rw [Database.workflow, present] at same
        obtain ⟨approval, asked, isOpen⟩ :=
          inv.asked other (Table.get_mem same.symm).1 waiting
        exact ⟨approval, List.mem_append_left _ asked, isOpen⟩

/-- A decision keeps the law exactly where it leaves an approval open. -/
theorem decide_iff {approvalId : String} {request : DecisionRequest} {now : ℤ}
    (keys : (db.humanApprovals.map HumanApproval.id).Nodup) :
    NobodyWaitsAlone { db with toDatabase := decideApproval approvalId request now db.toDatabase } ↔
      LeavesOneOpen db (.decide approvalId request now) := by
  have rows := (decideApproval_rows db.toDatabase approvalId request now).1
  have asked : ∀ id, SomeoneAsked id
      { db with toDatabase := decideApproval approvalId request now db.toDatabase } ↔
      ∃ approval ∈ db.humanApprovals, OpenFor id approval ∧ approval.id ≠ approvalId := by
    intro id
    exact exists_congr fun approval => decideApproval_open db.toDatabase approvalId request now keys
  show (∀ row ∈ (decideApproval approvalId request now db.toDatabase).workflows, _) ↔ _
  rw [rows]
  exact forall₂_congr fun row _ => imp_congr_right fun _ => asked row.id

theorem inv_step (inv : Inv db) (leaves : LeavesOneOpen db e) (step : Step db e next) :
    Inv next := by
  cases e with
  | create creation =>
    obtain ⟨new, rfl⟩ := step
    exact inv_create inv new
  | run id behaviour escalationId =>
    obtain ⟨row, found, new, rfl⟩ := step
    obtain rfl : row.id = id := (Table.get_mem found).2
    exact inv_run inv found new
  | decide approvalId request now =>
    obtain rfl := step
    refine ⟨?_, ?_, (decide_iff inv.approvalKeys).mpr leaves⟩
    · show ((decideApproval approvalId request now db.toDatabase).workflows.map _).Nodup
      rw [(decideApproval_rows db.toDatabase approvalId request now).1]
      exact inv.workflowKeys
    · show ((decideApproval approvalId request now db.toDatabase).humanApprovals.map _).Nodup
      rw [decideApproval_keys]
      exact inv.approvalKeys

theorem inv_initial (initial : Initial db) : Inv db := by
  obtain ⟨workflows, approvals⟩ := initial
  refine ⟨?_, ?_, ?_⟩
  · rw [workflows]
    exact List.nodup_nil
  · rw [approvals]
    exact List.nodup_nil
  · intro row member
    rw [workflows] at member
    cases member

end Steps

/-- Nobody waits alone in a run whose decisions each leave one approval open, and the next
operation keeps it so exactly where it does the same. -/
theorem nobody_waits_alone {start db : CompanyDatabase} {es : List Event}
    (initial : Initial start) (run : Run (Guarded LeavesOneOpen Step) start es db) :
    NobodyWaitsAlone db ∧
      ∀ e next, Step db e next → (NobodyWaitsAlone next ↔ LeavesOneOpen db e) := by
  have inv : Inv db :=
    run.invariant (fun _ _ _ inv taken => inv_step inv taken.1 taken.2) (inv_initial initial)
  refine ⟨inv.asked, ?_⟩
  intro e next step
  constructor
  · intro kept
    cases e with
    | create creation => trivial
    | run id behaviour escalationId => trivial
    | decide approvalId request now =>
      obtain rfl := step
      exact (decide_iff inv.approvalKeys).mp kept
  · intro leaves
    exact (inv_step inv leaves step).asked

section Sample

def sampleStart : CompanyDatabase := ⟨.empty, [], [], []⟩

theorem sampleStart_initial : Initial sampleStart := ⟨rfl, rfl⟩

def sampleCreation : Creation :=
  ⟨"w", "finance_operations", "Invoice", .object [], "api", 0⟩

/-- The finance agent proposes the invoice and returns. -/
def sampleBehaviour : Behaviour :=
  .returns [.propose none ⟨"invoice_create", "Create invoice for customer", .object []⟩
    ⟨"critical", true,
      ["Financial, contractual, destructive, or credential action is blocked."]⟩
    ⟨"x", "a", "p", "h"⟩] .null

def sampleWaiting : CompanyDatabase :=
  runWorkflow (.load sampleCreation.row) sampleBehaviour "e"
    (createWorkflow sampleCreation sampleStart)

def sampleDecision : DecisionRequest := ⟨"approved", "ceo", none⟩

def sampleDecided : CompanyDatabase :=
  { sampleWaiting with
    toDatabase := decideApproval "a" sampleDecision 1 sampleWaiting.toDatabase }

theorem sample_created :
    Step sampleStart (.create sampleCreation) (createWorkflow sampleCreation sampleStart) :=
  ⟨List.not_mem_nil, rfl⟩

theorem sample_ran : Step (createWorkflow sampleCreation sampleStart)
    (.run "w" sampleBehaviour "e") sampleWaiting :=
  ⟨sampleCreation.row, rfl, by decide, rfl⟩

theorem nobody_waits_alone_sample : NobodyWaitsAlone sampleWaiting ∧
    ∀ e next, Step sampleWaiting e next →
      (NobodyWaitsAlone next ↔ LeavesOneOpen sampleWaiting e) := by
  have run : Run (Guarded LeavesOneOpen Step) sampleStart
      [.create sampleCreation, .run "w" sampleBehaviour "e"] sampleWaiting :=
    .cons ⟨trivial, sample_created⟩ (.cons ⟨trivial, sample_ran⟩ (.nil _))
  exact nobody_waits_alone sampleStart_initial run

/-- The approval of the only proposal leaves the workflow waiting for nobody. -/
theorem waits_for_nobody : ¬ ∀ (start db : CompanyDatabase) (es : List Event), Initial start →
    Run Step start es db → NobodyWaitsAlone db := by
  intro law
  have decided : Step sampleWaiting (.decide "a" sampleDecision 1) sampleDecided := rfl
  have run : Run Step sampleStart _ sampleDecided :=
    .cons sample_created (.cons sample_ran (.cons decided (.nil _)))
  have closed : sampleDecided.humanApprovals.map HumanApproval.status = [.approved] := by decide
  obtain ⟨row, only, waiting⟩ : ∃ row, sampleDecided.workflows = [row] ∧
    row.status = .waitingForHuman := ⟨_, rfl, rfl⟩
  have member : row ∈ sampleDecided.workflows := by
    rw [only]
    exact List.mem_cons_self
  obtain ⟨approval, asked, _, isOpen⟩ :=
    law _ _ _ sampleStart_initial run row member waiting
  have status := List.mem_map_of_mem (f := HumanApproval.status) asked
  rw [closed, isOpen] at status
  simp at status

end Sample

end BusinessOs.App.Waiting
