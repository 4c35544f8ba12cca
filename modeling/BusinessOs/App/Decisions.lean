/- Source: app/services/approval.py, app/services/guardrails.py, app/api/routes_agents.py,
     app/api/routes_admin.py
   digest: Interleaved decision requests, and when the external action follows the approval. -/

import BusinessOs.App.Guardrails
import BusinessOs.Lib.Execution
import BusinessOs.Lib.Interleaving

set_option autoImplicit false
set_option relaxedAutoImplicit false

namespace BusinessOs.App.Decisions

open BusinessOs.Lib BusinessOs.Lib.Execution BusinessOs.Lib.Interleaving BusinessOs.Lib.UnitOfWork
open BusinessOs.Lib.Json.Tree BusinessOs.App.Models BusinessOs.App.Workflows
open BusinessOs.App.Guardrails

/-- The fields of a decision request, the same on both routes. -/
structure DecisionRequest where
  status : String
  decidedBy : String
  decisionNote : Option String
  deriving DecidableEq

def DecisionRequest.decision (request : DecisionRequest) : ApprovalStatus :=
  if request.status = "approved" then .approved else .rejected

/-- Where a request stands between its reads and commits. -/
inductive Phase
  | waiting
  /-- After `session.get(HumanApproval, approval_id)`. -/
  | loaded (approval : ApprovalCopy)
  /-- After the first commit of `decide`. -/
  | decided (approval : ApprovalCopy)
  /-- After the commit of its audit record. -/
  | recorded (approval : ApprovalCopy)
  /-- After `session.get(ExternalAction, action_id)`. -/
  | syncing (approval : ApprovalCopy) (action : ActionCopy)
  | finished
  deriving DecidableEq

inductive Event (R : Type)
  | read (i : R)
  | decide (i : R) (now : ℤ)
  | record (i : R)
  | readAction (i : R)
  | sync (i : R)
  deriving DecidableEq

/-- The committed tables, and where each request stands. -/
abbrev World (R : Type) := Interleaving.World R Database Phase

variable {R : Type} [DecidableEq R]

section Step

variable (requests : R → DecisionRequest) (approvalId : String)

/-- One read or commit of one request; `none` where the event does not fit its phase. -/
def step (s : World R) : Event R → Option (World R)
  | .read i =>
    match s.phase i with
    | .waiting =>
      match s.db.approval approvalId with
      | none => some (s.move i s.db .finished)
      | some row => some (s.move i s.db (.loaded (.load row)))
    | _ => none
  | .decide i now =>
    match s.phase i with
    | .loaded approval =>
      let request := requests i
      let approval := Guardrails.decide approval request.decision request.decidedBy
        request.decisionNote now
      some (s.move i (approval.commit s.db) (.decided approval.committed))
    | _ => none
  | .record i =>
    match s.phase i with
    | .decided approval =>
      let entry := decideRecord approval (requests i).decidedBy
      some (s.move i { s.db with auditLogs := s.db.auditLogs ++ [entry] } (.recorded approval))
    | _ => none
  -- `sync_external_action_decision` returns early where the proposal names no action.
  | .readAction i =>
    match s.phase i with
    | .recorded approval =>
      match (externalActionId approval.proposedAction).bind s.db.action with
      | none => some (s.move i s.db .finished)
      | some row => some (s.move i s.db (.syncing approval (.load row)))
    | _ => none
  | .sync i =>
    match s.phase i with
    | .syncing approval action =>
      some (s.move i ((syncDecision approval action).commit s.db) .finished)
    | _ => none

end Step

/-- The status of an external action that goes with one of its approval. -/
def expected : ApprovalStatus → ExternalActionStatus
  | .opened => .proposed
  | .approved => .approved
  | .rejected => .rejected

/-- The approval's row holds the request's decision, or the action that the request has read
follows that decision already. -/
def InForce (phase : Phase) (row : Option HumanApproval) : Prop :=
  match phase, row with
  | .syncing approval action, some row => row.status = approval.status.current ∨
    action.status.loaded = expected approval.status.current
  | _, _ => True

instance (phase : Phase) (row : Option HumanApproval) : Decidable (InForce phase row) :=
  match phase, row with
  | .syncing approval action, some row => inferInstanceAs (Decidable
    (row.status = approval.status.current ∨
      action.status.loaded = expected approval.status.current))
  | .syncing _ _, none | .waiting, _ | .loaded _, _ | .decided _, _ | .recorded _, _
  | .finished, _ => isTrue trivial

/-- No request syncs a decision that the approval's row holds no longer. -/
def NoStaleSync (approvalId : String) (s : World R) : Event R → Prop
  | .sync i => InForce (s.phase i) (s.db.approval approvalId)
  | _ => True

instance (approvalId : String) (s : World R) (e : Event R) :
    Decidable (NoStaleSync approvalId s e) :=
  match e with
  | .sync i => inferInstanceAs (Decidable (InForce (s.phase i) (s.db.approval approvalId)))
  | .read _ | .decide _ _ | .record _ | .readAction _ => isTrue trivial

/-- The action's row follows the approval's. -/
def Agreed (approvalId actionId : String) (db : Database) : Prop :=
  ∃ approval action, db.approval approvalId = some approval ∧ db.action actionId = some action ∧
    action.status = expected approval.status

/-- An approval's copy as its session keeps it: of that row, naming that action. -/
structure Copied (approvalId actionId : String) (approval : ApprovalCopy) : Prop where
  id : approval.id = approvalId
  names : externalActionId approval.proposedAction = some actionId

/-- A copy whose decision is committed. -/
structure Settled (approvalId actionId : String) (approval : ApprovalCopy) : Prop
    extends Copied approvalId actionId approval where
  decided : approval.status.current ≠ .opened

/-- What a phase says about its request's copies. -/
def PhaseLaw (approvalId actionId : String) : Phase → Prop
  | .waiting | .finished => True
  | .loaded approval => Copied approvalId actionId approval
  | .decided approval | .recorded approval => Settled approvalId actionId approval
  | .syncing approval action => Settled approvalId actionId approval ∧ action.id = actionId ∧
    action.status.current = action.status.loaded

/-- A request that will still write the status that goes with the approval's. -/
def Repairs (status : ApprovalStatus) : Phase → Prop
  | .decided approval | .recorded approval => approval.status.current = status
  | .syncing approval action => approval.status.current = status ∧
    action.status.loaded ≠ expected status
  | .waiting | .loaded _ | .finished => False

/-- Both rows exist, and the action follows the approval or some request will make it. -/
structure Inv (approvalId actionId : String) (s : World R) : Prop where
  phases : ∀ i, PhaseLaw approvalId actionId (s.phase i)
  rows : ∃ approval action, s.db.approval approvalId = some approval ∧
    s.db.action actionId = some action ∧
    externalActionId approval.proposedAction = some actionId ∧
    (action.status = expected approval.status ∨ ∃ i, Repairs approval.status (s.phase i))

section Move

variable {s : World R} {i : R} {db : Database} {phase : Phase} {approvalId actionId : String}

/-- A request moves on over rows that still exist, with the repair in hand or not needed. -/
theorem Inv.move (inv : Inv approvalId actionId s) (phase : Phase)
    (law : PhaseLaw approvalId actionId phase)
    {approval : HumanApproval} {action : ExternalAction}
    (approvalRow : db.approval approvalId = some approval)
    (actionRow : db.action actionId = some action)
    (names : externalActionId approval.proposedAction = some actionId)
    (repaired : action.status = expected approval.status ∨ Repairs approval.status phase ∨
      ∃ j, j ≠ i ∧ Repairs approval.status (s.phase j)) :
    Inv approvalId actionId (s.move i db phase) := by
  refine ⟨forall_move law fun j _ => inv.phases j, approval, action, approvalRow, actionRow,
    names, ?_⟩
  rcases repaired with agreed | some_
  · exact .inl agreed
  · exact .inr (exists_move some_)

omit [DecidableEq R] in
/-- A repair that is not this request's stays as it is. -/
theorem elsewhere {status : ApprovalStatus} {x : ExternalActionStatus}
    (open_ : x = expected status ∨ ∃ j, Repairs status (s.phase j))
    (here : ¬ Repairs status (s.phase i)) :
    x = expected status ∨ Repairs status phase ∨ ∃ j, j ≠ i ∧ Repairs status (s.phase j) := by
  rcases open_ with agreed | ⟨j, there⟩
  · exact .inl agreed
  · refine .inr (.inr ⟨j, ?_, there⟩)
    rintro rfl
    exact here there

end Move

section Invariant

variable {requests : R → DecisionRequest} {approvalId actionId : String} {s t : World R} {i : R}

theorem inv_read (inv : Inv approvalId actionId s)
    (taken : step requests approvalId s (.read i) = some t) : Inv approvalId actionId t := by
  obtain ⟨approval, action, approvalRow, actionRow, names, open_⟩ := inv.rows
  cases at_ : s.phase i <;> simp only [step, at_, approvalRow, reduceCtorEq] at taken
  obtain rfl := Option.some.inj taken
  have own : approval.id = approvalId := (Table.get_mem approvalRow).2
  refine inv.move (.loaded (.load approval)) ⟨own, names⟩ approvalRow actionRow names
    (elsewhere open_ ?_)
  rw [at_]
  exact id

/-- A decision that reaches the row is its own repair; one that does not changes nothing. -/
theorem inv_decide (inv : Inv approvalId actionId s) {now : ℤ}
    (taken : step requests approvalId s (.decide i now) = some t) : Inv approvalId actionId t := by
  obtain ⟨row, action, approvalRow, actionRow, names, open_⟩ := inv.rows
  have law := inv.phases i
  cases at_ : s.phase i <;> simp only [step, at_, reduceCtorEq] at taken
  rename_i approval
  rw [at_] at law
  obtain rfl := Option.some.inj taken
  generalize copy : Guardrails.decide approval (requests i).decision (requests i).decidedBy
    (requests i).decisionNote now = decided
  have current : decided.status.current = (requests i).decision := by
    rw [← copy]
    rfl
  have settled : Settled approvalId actionId decided.committed := by
    refine ⟨⟨?_, ?_⟩, ?_⟩
    · rw [← copy]
      exact law.id
    · rw [← copy]
      exact law.names
    · show decided.status.current ≠ .opened
      rw [current, DecisionRequest.decision]
      split <;> simp
  have own : decided.id = approvalId := settled.id
  obtain ⟨written, untouched⟩ := approval_commit s.db decided actionId
  rw [own, approvalRow] at written
  refine inv.move (.decided decided.committed) settled written
    (untouched.trans actionRow) names ?_
  by_cases dirty : decided.status.current = decided.status.loaded
  · have same : (decided.flush row).status = row.status := flush_of_eq dirty
    rw [same]
    refine elsewhere open_ ?_
    rw [at_]
    exact id
  · right
    left
    show decided.status.current = decided.status.flush row.status
    exact (flush_of_ne dirty).symm

theorem inv_record (inv : Inv approvalId actionId s)
    (taken : step requests approvalId s (.record i) = some t) : Inv approvalId actionId t := by
  obtain ⟨row, action, approvalRow, actionRow, names, open_⟩ := inv.rows
  have law := inv.phases i
  cases at_ : s.phase i <;> simp only [step, at_, reduceCtorEq] at taken
  rename_i approval
  rw [at_] at law
  obtain rfl := Option.some.inj taken
  refine inv.move (.recorded approval) law approvalRow actionRow names ?_
  by_cases here : approval.status.current = row.status
  · exact .inr (.inl here)
  · refine elsewhere open_ ?_
    rw [at_]
    exact here

/-- Reading the action leaves it to be repaired, unless it is right already. -/
theorem inv_readAction (inv : Inv approvalId actionId s)
    (taken : step requests approvalId s (.readAction i) = some t) :
    Inv approvalId actionId t := by
  obtain ⟨row, action, approvalRow, actionRow, names, open_⟩ := inv.rows
  have law := inv.phases i
  cases at_ : s.phase i <;> simp only [step, at_, reduceCtorEq] at taken
  rename_i approval
  rw [at_] at law
  rw [law.names, Option.bind_some, actionRow] at taken
  obtain rfl := Option.some.inj taken
  have own : action.id = actionId := (Table.get_mem actionRow).2
  refine inv.move (.syncing approval (.load action)) ⟨law, own, rfl⟩ approvalRow
    actionRow names ?_
  by_cases right : action.status = expected row.status
  · exact .inl right
  · by_cases here : approval.status.current = row.status
    · exact .inr (.inl ⟨here, right⟩)
    · refine elsewhere open_ ?_
      rw [at_]
      exact here

/-- What a sync sets is what goes with its request's decision. -/
theorem syncDecision_current {approval : ApprovalCopy} (action : ActionCopy)
    (decided : approval.status.current ≠ .opened) :
    (syncDecision approval action).status.current = expected approval.status.current ∧
      (syncDecision approval action).status.loaded = action.status.loaded ∧
      (syncDecision approval action).id = action.id := by
  unfold syncDecision
  cases status : approval.status.current with
  | opened => exact absurd status decided
  | approved => exact ⟨rfl, rfl, rfl⟩
  | rejected => exact ⟨rfl, rfl, rfl⟩

/-- A sync commit writes the status that goes with its request's decision, unless the action was
read with it. -/
theorem sync_written (inv : Inv approvalId actionId s)
    (taken : step requests approvalId s (.sync i) = some t) :
    ∃ approval action x y db, s.phase i = .syncing approval action ∧ t = s.move i db .finished ∧
      s.db.action actionId = some x ∧ db.action actionId = some y ∧
      db.approval approvalId = s.db.approval approvalId ∧
      y.status = if action.status.loaded = expected approval.status.current then x.status
        else expected approval.status.current := by
  obtain ⟨_, x, _, actionRow, _, _⟩ := inv.rows
  have law := inv.phases i
  cases at_ : s.phase i <;> simp only [step, at_, reduceCtorEq] at taken
  rename_i approval action
  rw [at_] at law
  obtain ⟨settled, own, _⟩ := law
  obtain rfl := Option.some.inj taken
  obtain ⟨current, loaded, same⟩ := syncDecision_current action settled.decided
  generalize syncDecision approval action = synced at current loaded same ⊢
  obtain ⟨written, untouched⟩ := action_commit s.db synced approvalId
  rw [same.trans own, actionRow] at written
  refine ⟨approval, action, x, synced.flush x, _, rfl, rfl, actionRow, written, untouched, ?_⟩
  show synced.status.flush x.status = _
  rw [Tracked.flush, current, loaded]
  simp only [eq_comm]

theorem inv_sync (inv : Inv approvalId actionId s)
    (guard : NoStaleSync approvalId s (.sync i))
    (taken : step requests approvalId s (.sync i) = some t) : Inv approvalId actionId t := by
  obtain ⟨row, _, approvalRow, actionRow, names, open_⟩ := inv.rows
  obtain ⟨approval, action, x, y, db, at_, rfl, read, written, untouched, status⟩ :=
    sync_written inv taken
  cases actionRow.symm.trans read
  rw [NoStaleSync, at_, approvalRow, InForce] at guard
  refine inv.move .finished trivial (untouched.trans approvalRow) written names ?_
  by_cases follows : action.status.loaded = expected approval.status.current
  · rw [status, if_pos follows]
    refine elsewhere open_ ?_
    rw [at_]
    rintro ⟨decision, wrong⟩
    exact wrong (decision ▸ follows)
  · left
    rw [status, if_neg follows, guard.resolve_right follows]

theorem inv_step {e : Event R} (inv : Inv approvalId actionId s)
    (guard : NoStaleSync approvalId s e) (taken : step requests approvalId s e = some t) :
    Inv approvalId actionId t := by
  cases e with
  | read i => exact inv_read inv taken
  | decide i now => exact inv_decide inv taken
  | record i => exact inv_record inv taken
  | readAction i => exact inv_readAction inv taken
  | sync i => exact inv_sync inv guard taken

omit [DecidableEq R] in
/-- With nothing left to write, the action follows the approval. -/
theorem Inv.agreed (inv : Inv approvalId actionId s) (finished : ∀ i, s.phase i = .finished) :
    Agreed approvalId actionId s.db := by
  obtain ⟨approval, action, approvalRow, actionRow, _, agreed | ⟨i, open_⟩⟩ := inv.rows
  · exact ⟨approval, action, approvalRow, actionRow, agreed⟩
  · rw [finished i] at open_
    exact open_.elim

theorem expected_injective : Function.Injective expected := by
  intro a b same
  cases a <;> cases b <;> simp [expected] at same ⊢

/-- Every stale sync leaves the action with a status that does not go with the approval's. -/
theorem stale_sync_disagrees (inv : Inv approvalId actionId s)
    (stale : ¬ NoStaleSync approvalId s (.sync i))
    (taken : step requests approvalId s (.sync i) = some t) :
    ¬ Agreed approvalId actionId t.db := by
  obtain ⟨row, _, approvalRow, _, _, _⟩ := inv.rows
  obtain ⟨approval, action, x, y, db, at_, rfl, _, written, untouched, status⟩ :=
    sync_written inv taken
  rw [NoStaleSync, at_, approvalRow, InForce, not_or] at stale
  obtain ⟨overwritten, unread⟩ := stale
  rintro ⟨row', y', approvalRow', actionRow', agreed⟩
  cases (untouched.trans approvalRow).symm.trans approvalRow'
  cases written.symm.trans actionRow'
  rw [status, if_neg unread] at agreed
  exact overwritten (expected_injective agreed).symm

end Invariant

/-- The rows of a gated request, before anybody decides. -/
structure Gated (R : Type) where
  db : Database
  workflow : WorkflowCopy
  actionType : String
  summary : String
  payload : Value
  agentId : Option String
  classification : Classification
  actionId : String
  approvalId : String
  requests : R → DecisionRequest
  gated : classification.requiresApproval = true
  newAction : db.action actionId = none
  newApproval : db.approval approvalId = none
  named : actionId ≠ ""

def Gated.start (g : Gated R) : World R where
  db := requestExternalAction g.db (some g.workflow) g.actionType g.summary g.payload g.agentId
    g.classification g.actionId g.approvalId
  phase := fun _ => .waiting

omit [DecidableEq R] in
theorem Gated.inv (g : Gated R) : Inv g.approvalId g.actionId g.start := by
  obtain ⟨⟨approval, approvalRow, opened, proposes⟩, action, actionRow, proposed⟩ :=
    requestExternalAction_rows g.workflow g.actionType g.summary g.payload g.agentId g.gated
      g.newAction g.newApproval
  refine ⟨fun _ => trivial, approval, action, approvalRow, actionRow, ?_, .inl ?_⟩
  · rw [proposes]
    exact externalActionId_proposal g.named
  · rw [opened, proposed]
    rfl

/-- When every request has finished and no sync commit was stale, the action follows the
approval. -/
theorem decision_agreement (g : Gated R) {es : List (Event R)} {s : World R}
    (run : Run (Guarded (NoStaleSync g.approvalId)
      (ofPartial (step g.requests g.approvalId))) g.start es s)
    (finished : ∀ i, s.phase i = .finished) : Agreed g.approvalId g.actionId s.db := by
  have inv : Inv g.approvalId g.actionId s :=
    run.invariant (fun _ _ _ inv taken => inv_step inv taken.1 taken.2) g.inv
  exact inv.agreed finished

section Sample

/-- One request approves and one rejects. -/
inductive Side
  | approver | rejecter
  deriving DecidableEq

def sampleRow : Workflow := Workflow.new "w" "finance_operations" "Invoice" .null "api" 0

def sampleGated : Gated Side where
  db := { Database.empty with workflows := [sampleRow] }
  workflow := .load sampleRow
  actionType := "send_email"
  summary := "Invoice reminder"
  payload := .object []
  agentId := none
  classification := ⟨"high", true, ["outbound"]⟩
  actionId := "x"
  approvalId := "a"
  requests := fun
    | .approver => ⟨"approved", "ceo", none⟩
    | .rejecter => ⟨"rejected", "cfo", none⟩
  gated := rfl
  newAction := rfl
  newApproval := rfl
  named := by decide

/-- All the steps of one request. -/
def alone (i : Side) (now : ℤ) : List (Event Side) :=
  [.read i, .decide i now, .record i, .readAction i, .sync i]

/-- A request that finishes before the other one begins is never stale. -/
theorem decision_agreement_serial : ∃ s,
    Run (Guarded (NoStaleSync sampleGated.approvalId)
      (ofPartial (step sampleGated.requests sampleGated.approvalId))) sampleGated.start
      (alone .approver 1 ++ alone .rejecter 2) s ∧
    Agreed sampleGated.approvalId sampleGated.actionId s.db := by
  have runs : ((alone .approver 1 ++ alone .rejecter 2).foldlM
      (fun s e => if NoStaleSync sampleGated.approvalId s e then
        step sampleGated.requests sampleGated.approvalId s e else none)
      sampleGated.start).map (fun s => (s.phase .approver, s.phase .rejecter)) =
      some (.finished, .finished) := by decide
  obtain ⟨s, last, phases⟩ := Option.map_eq_some_iff.mp runs
  obtain ⟨approver, rejecter⟩ := Prod.mk.inj phases
  have run := Run.of_guarded_foldlM last
  refine ⟨s, run, decision_agreement sampleGated run ?_⟩
  intro i
  cases i
  · exact approver
  · exact rejecter

/-- The approver has read the approval first, and writes the action last. -/
def crossing : List (Event Side) :=
  [.read .approver, .read .rejecter, .decide .approver 1, .decide .rejecter 2,
    .record .approver, .record .rejecter, .readAction .rejecter, .sync .rejecter,
    .readAction .approver, .sync .approver]

def crossed : World Side :=
  (crossing.foldlM (step sampleGated.requests sampleGated.approvalId) sampleGated.start).getD
    sampleGated.start

/-- The approval ends rejected and its action approved. -/
theorem rejected_but_approved : ¬ ∀ (g : Gated Side) es s,
    Run (ofPartial (step g.requests g.approvalId)) g.start es s →
    (∀ i, s.phase i = .finished) → Agreed g.approvalId g.actionId s.db := by
  intro law
  have last : crossing.foldlM (step sampleGated.requests sampleGated.approvalId)
    sampleGated.start = some crossed := rfl
  have approval : (crossed.db.approval "a").map HumanApproval.status = some .rejected := by decide
  have action : (crossed.db.action "x").map ExternalAction.status = some .approved := by decide
  obtain ⟨row, x, approvalRow, actionRow, agreed⟩ :=
    law sampleGated crossing crossed (Run.of_foldlM last) (by intro i; cases i <;> rfl)
  rw [show crossed.db.approval "a" = some row from approvalRow, Option.map_some] at approval
  rw [show crossed.db.action "x" = some x from actionRow, Option.map_some, agreed,
    Option.some.inj approval] at action
  cases action

end Sample

end BusinessOs.App.Decisions
