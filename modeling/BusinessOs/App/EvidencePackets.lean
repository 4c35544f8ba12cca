/- Source: app/services/evidence.py, app/services/guardrails.py (request_external_action),
     app/models.py (EvidencePacket)
   digest: Requests of external actions with their evidence packets, interleaved between their
     commits with decisions and with requests that stop halfway. -/

import BusinessOs.App.Guardrails
import BusinessOs.Core.HashJson
import BusinessOs.Lib.Execution
import BusinessOs.Lib.Json.Access
import BusinessOs.Lib.KeyedCalls

set_option autoImplicit false
set_option relaxedAutoImplicit false

namespace BusinessOs.App.EvidencePackets

open BusinessOs.Lib BusinessOs.Lib.Execution BusinessOs.Lib.Interleaving BusinessOs.Lib.Json.Tree
open BusinessOs.Lib.KeyedCalls (Discipline Kept)
open BusinessOs.App.Models BusinessOs.App.Workflows BusinessOs.App.Guardrails
open BusinessOs.Core.HashJson (DistinctKeys EqUpToOrder hashJson canonicalize_eq_iff)

/-- The constant columns `policy_version` and `attribution` are left out. -/
structure EvidencePacket where
  id : String
  workflowId : Option String
  externalActionId : String
  agentId : Option String
  packetType : String
  intent : String
  contextHash : String
  status : String
  artifacts : Value
  deriving DecidableEq

structure EvidenceDatabase extends Database where
  evidencePackets : List EvidencePacket
  deriving DecidableEq

/-- What a packet names of an agent. -/
structure Agent where
  id : String
  role : String
  trustLevel : String
  deriving DecidableEq

/-- The arguments of `request_external_action`, what `classify_action` answers, and the generated
ids; `source` is the workflow's, and the payload is a `dict`. -/
structure Request where
  workflow : Option WorkflowCopy
  source : String
  agent : Option Agent
  actionType : String
  summary : String
  payload : Value
  classification : Classification
  actionId : String
  approvalId : String
  packetId : String
  distinct : DistinctKeys payload

def orNull : Option String → Value
  | none => .null
  | some s => .string s

namespace Request

variable (r : Request) (hash : Value → String)

def workflowId : Option String := r.workflow.map WorkflowCopy.id

def agentId : Option String := r.agent.map Agent.id

/-- The row that the first commit inserts. -/
def row : ExternalAction where
  id := r.actionId
  workflowId := r.workflowId
  agentId := r.agentId
  actionType := r.actionType
  summary := r.summary
  payload := r.payload
  riskLevel := r.classification.riskLevel
  requiresApproval := r.classification.requiresApproval
  approvalId := none
  status := if r.classification.requiresApproval then .proposed else .approved

/-- The workflow that a request for an approval stops. -/
def gate : Option WorkflowCopy :=
  if r.classification.requiresApproval then r.workflow else none

def approval : Option String := r.gate.map fun _ => r.approvalId

/-- The row as the request leaves it. -/
def linked : ExternalAction := { r.row with approvalId := r.approval }

def artifacts : Value :=
  .object [("intent", .string r.linked.summary),
    ("action_type", .string r.linked.actionType),
    ("risk_level", .string r.linked.riskLevel),
    ("requires_approval", .bool r.linked.requiresApproval),
    ("approval_id", orNull r.linked.approvalId),
    ("guardrail_reasons", .array (r.classification.reasons.map Value.string)),
    ("payload_hash", .string (hash r.linked.payload)),
    ("workflow", .object [("id", orNull r.workflowId),
      ("kind", orNull (r.workflow.map WorkflowCopy.kind)),
      ("source", orNull (r.workflow.map fun _ => r.source))]),
    ("agent", .object [("id", orNull r.agentId), ("role", orNull (r.agent.map Agent.role)),
      ("trust_level", orNull (r.agent.map Agent.trustLevel))]),
    ("policy", .object [("mode", .string "fail-close"),
      ("tool_boundary", .string "external_action"),
      ("human_approval_required", .bool r.linked.requiresApproval)])]

/-- `record_external_action_packet`, up to its first commit. -/
def packet : EvidencePacket where
  id := r.packetId
  workflowId := r.workflowId
  externalActionId := r.linked.id
  agentId := r.agentId
  packetType := "external_action"
  intent := r.linked.summary
  contextHash := hash (r.artifacts hash)
  status := if r.linked.requiresApproval then "waiting_for_approval" else "approved_to_execute"
  artifacts := r.artifacts hash

def packetRecord : AuditLog where
  workflowId := r.workflowId
  action := .evidencePacketRecorded
  actor := "system"
  message := "Evidence packet recorded: " ++ r.linked.summary
  metadata := .object [("evidence_packet_id", .string (r.packet hash).id),
    ("external_action_id", .string r.linked.id),
    ("context_hash", .string (r.packet hash).contextHash),
    ("status", .string (r.packet hash).status)]

def requestedRecord : AuditLog where
  workflowId := r.workflowId
  action := .externalActionRequested
  actor := "system"
  message := "External action proposed: " ++ r.summary
  metadata := .object [("external_action_id", .string r.linked.id),
    ("agent_id", orNull r.agentId),
    ("risk_level", .string r.classification.riskLevel),
    ("requires_approval", .bool r.classification.requiresApproval),
    ("approval_id", orNull r.approval),
    ("evidence_packet_id", .string (r.packet hash).id)]

end Request

/-- The next commit of a request. -/
inductive Stage
  | waitForHuman
  | approval
  | approvalRecord
  | link
  | packet
  | packetRecord
  | requestedRecord
  deriving DecidableEq

/-- A process between two requests, inside one, or behind an exception or its death there. -/
inductive Phase
  | idle
  | at (stage : Stage) (r : Request)
  | stopped (stage : Stage) (r : Request)

inductive Event (P : Type)
  /-- `request_external_action`, up to its first commit. -/
  | request (p : P) (r : Request)
  | commit (p : P)
  | stop (p : P)
  /-- The commit of a decision that `sync_external_action_decision` makes. -/
  | decide (actionId : String) (status : ExternalActionStatus)

abbrev World (P : Type) := Interleaving.World P EvidenceDatabase Phase

def EvidenceDatabase.log (db : EvidenceDatabase) (entry : AuditLog) : EvidenceDatabase :=
  { db with auditLogs := db.auditLogs ++ [entry] }

def EvidenceDatabase.propose (db : EvidenceDatabase) (row : ExternalAction) : EvidenceDatabase :=
  { db with externalActions := db.externalActions ++ [row] }

section Step

variable {P : Type} [DecidableEq P] (hash : Value → String)

/-- A commit inside a request, and what comes behind it. -/
def commit (db : EvidenceDatabase) (r : Request) : Stage → EvidenceDatabase × Phase
  | .waitForHuman =>
    match r.gate with
    | some workflow =>
      ({ db with toDatabase := (waitForHuman workflow).commit db.toDatabase }, .at .approval r)
    | none => (db, .at .packet r)
  | .approval =>
    match r.gate with
    | some workflow =>
      let approval := openApproval workflow.id ("Approve external action: " ++ r.summary)
        "Guardrail policy requires human approval before this action can execute."
        (proposal r.actionType r.summary r.payload r.classification r.actionId) r.approvalId
      ({ db with humanApprovals := db.humanApprovals ++ [approval] }, .at .approvalRecord r)
    | none => (db, .at .packet r)
  | .approvalRecord =>
    (db.log
      { workflowId := r.workflowId
        action := .approvalRequested
        actor := "system"
        message := "Approval requested: " ++ ("Approve external action: " ++ r.summary)
        metadata := .object [("approval_id", .string r.approvalId)] }, .at .link r)
  | .link =>
    ({ db with
      externalActions := Table.update ExternalAction.id db.externalActions r.actionId
        fun action => { action with approvalId := r.approval } }, .at .packet r)
  | .packet =>
    ({ db with evidencePackets := db.evidencePackets ++ [r.packet hash] }, .at .packetRecord r)
  | .packetRecord => (db.log (r.packetRecord hash), .at .requestedRecord r)
  | .requestedRecord => (db.log (r.requestedRecord hash), .idle)

/-- `none` where the event does not fit the process, or its new row has the key of another one. -/
def step (s : World P) : Event P → Option (World P)
  | .request p r =>
    match s.phase p with
    | .idle =>
      if r.actionId ∉ s.db.externalActions.map ExternalAction.id then
        some (s.move p (s.db.propose r.row)
          (.at (if r.gate.isSome then .waitForHuman else .packet) r))
      else none
    | _ => none
  | .commit p =>
    match s.phase p with
    | .at stage r =>
      let next := commit hash s.db r stage
      some (s.move p next.1 next.2)
    | _ => none
  | .stop p =>
    match s.phase p with
    | .at stage r => some (s.move p s.db (.stopped stage r))
    | _ => none
  | .decide actionId status =>
    some { s with
      db := { s.db with
        externalActions := Table.update ExternalAction.id s.db.externalActions actionId
          fun action => { action with status } } }

end Step

/-- The commits of a request ahead of its packet, uninterrupted. -/
def upToPacket (hash : Value → String) (db : EvidenceDatabase) (r : Request) : EvidenceDatabase :=
  let db := db.propose r.row
  if r.gate.isSome then
    [Stage.waitForHuman, .approval, .approvalRecord, .link].foldl
      (fun db stage => (commit hash db r stage).1) db
  else db

theorem upToPacket_eq (hash : Value → String) (db : EvidenceDatabase) (r : Request) :
    (upToPacket hash db r).toDatabase = requestExternalAction db.toDatabase r.workflow r.actionType
      r.summary r.payload r.agentId r.classification r.actionId r.approvalId := by
  unfold upToPacket requestExternalAction
  cases workflow : r.workflow with
  | none =>
    have ungated : r.gate = none := by simp [Request.gate, workflow]
    rw [ungated]
    simp [EvidenceDatabase.propose, Request.row, Request.workflowId, workflow]
  | some copy =>
    by_cases gated : r.classification.requiresApproval = true
    · have gate : r.gate = some copy := by simp [Request.gate, workflow, gated]
      simp only [gate, Option.isSome_some, if_true, gated, List.foldl_cons, List.foldl_nil, commit]
      simp [EvidenceDatabase.propose, EvidenceDatabase.log, Request.row, Request.workflowId,
        Request.approval, gate, workflow, gated, request, Database.record, WorkflowCopy.commit,
        waitForHuman]
    · have ungated : r.gate = none := by simp [Request.gate, gated]
      rw [ungated]
      simp [EvidenceDatabase.propose, Request.row, Request.workflowId, workflow, gated]

/-- The empty tables of actions and packets, with a log that names no request. -/
structure Initial {P : Type} (s : World P) : Prop where
  idle : ∀ p, s.phase p = .idle
  actions : s.db.externalActions = []
  packets : s.db.evidencePackets = []
  log : ∀ entry ∈ s.db.auditLogs, entry.action ≠ .externalActionRequested

/-- A packet's hashes and columns are those of an action's row. -/
structure Attests (hash : Value → String) (packet : EvidencePacket) (action : ExternalAction) :
    Prop where
  externalActionId : packet.externalActionId = action.id
  workflowId : packet.workflowId = action.workflowId
  agentId : packet.agentId = action.agentId
  intent : packet.intent = action.summary
  status : packet.status =
    if action.requiresApproval then "waiting_for_approval" else "approved_to_execute"
  contextHash : packet.contextHash = hash packet.artifacts
  actionType : packet.artifacts.get "action_type" = some (.string action.actionType)
  riskLevel : packet.artifacts.get "risk_level" = some (.string action.riskLevel)
  requiresApproval : packet.artifacts.get "requires_approval" = some (.bool action.requiresApproval)
  approvalId : packet.artifacts.get "approval_id" = some (orNull action.approvalId)
  payloadHash : packet.artifacts.get "payload_hash" = some (.string (hash action.payload))

/-- A row apart from its status, which decisions change. -/
def settle (action : ExternalAction) : ExternalAction := { action with status := .proposed }

/-- What the tables hold of one action. -/
def view (db : EvidenceDatabase) (actionId : String) :
    Option ExternalAction × List EvidencePacket :=
  ((db.action actionId).map settle,
    db.evidencePackets.filter fun packet => packet.externalActionId == actionId)

section Laws

variable (hash : Value → String)

/-- What the tables hold of a request's action before a commit. -/
def Stage.view (r : Request) : Stage → Option ExternalAction × List EvidencePacket
  | .waitForHuman | .approval | .approvalRecord | .link => (some (settle r.row), [])
  | .packet => (some (settle r.linked), [])
  | .packetRecord | .requestedRecord => (some (settle r.linked), [r.packet hash])

def Phase.key : Phase → Option String
  | .idle => none
  | .at _ r | .stopped _ r => some r.actionId

def Phase.expects : Phase → Option ExternalAction × List EvidencePacket
  | .idle => (none, [])
  | .at stage r | .stopped stage r => stage.view hash r

/-- No request has left more or less than an action with its packet. -/
def Complete (actionId : String) (r : Option ExternalAction × List EvidencePacket) : Prop :=
  r = (none, []) ∨
    ∃ request : Request, request.actionId = actionId ∧
      r = (some (settle request.linked), [request.packet hash])

/-- A request writes the rows of its own action. -/
def discipline :
    Discipline EvidenceDatabase Phase String (Option ExternalAction × List EvidencePacket) where
  view := view
  key := Phase.key
  expects := Phase.expects hash
  complete := Complete hash

structure Inv {P : Type} (s : World P) : Prop where
  keys : (s.db.externalActions.map ExternalAction.id).Nodup
  kept : Kept (discipline hash) s
  trail : ∀ entry ∈ s.db.auditLogs, entry.action = .externalActionRequested →
    ∃ r : Request, entry = r.requestedRecord hash ∧ r.packet hash ∈ s.db.evidencePackets

end Laws

section Step

variable {P : Type} [DecidableEq P] {hash : Value → String} {s t : World P} {e : Event P}
  {db : EvidenceDatabase} {r : Request} {stage : Stage}

theorem linked_of_gate (ungated : r.gate = none) : r.linked = r.row := by
  unfold Request.linked Request.approval
  rw [ungated]
  rfl

/-- Tables with the same actions and packets hold the same of every action. -/
theorem view_congr {next : EvidenceDatabase} (actions : next.externalActions = db.externalActions)
    (packets : next.evidencePackets = db.evidencePackets) (k : String) :
    view next k = view db k := by
  unfold view Database.action
  rw [actions, packets]

theorem view_link {k : String} (approvalId : Option String) :
    view { db with
      externalActions := Table.update ExternalAction.id db.externalActions r.actionId
        fun action => { action with approvalId } } k =
      if k = r.actionId then
        ((view db k).1.map fun action => { action with approvalId }, (view db k).2)
      else view db k := by
  have keeps : ∀ action : ExternalAction, { action with approvalId }.id = action.id := fun _ => rfl
  unfold view Database.action
  by_cases own : k = r.actionId
  · rw [if_pos own, own, Table.get_update_self keeps, Option.map_map, Option.map_map]
    rfl
  · rw [if_neg own, Table.get_update_of_ne keeps own]

theorem view_packet {k : String} :
    view { db with evidencePackets := db.evidencePackets ++ [r.packet hash] } k =
      if k = r.actionId then ((view db k).1, (view db k).2 ++ [r.packet hash]) else view db k := by
  have id : (r.packet hash).externalActionId = r.actionId := rfl
  unfold view
  rw [List.filter_append, List.filter_singleton, id]
  by_cases own : k = r.actionId
  · rw [if_pos own, own, beq_self_eq_true]
    exact rfl
  · have other : (r.actionId == k) = false := beq_false_of_ne (Ne.symm own)
    rw [if_neg own, other, cond_false, List.append_nil]

/-- A commit changes nothing of another action. -/
theorem commit_others {k : String} (other : k ≠ r.actionId) :
    view (commit hash db r stage).1 k = view db k := by
  unfold commit
  cases stage with
  | waitForHuman => cases r.gate <;> exact view_congr rfl rfl k
  | approval => cases r.gate <;> exact view_congr rfl rfl k
  | link => exact (view_link r.approval).trans (if_neg other)
  | packet => exact view_packet.trans (if_neg other)
  | _ => exact view_congr rfl rfl k

/-- A commit leaves what its successor finds. -/
theorem commit_view (found : view db r.actionId = stage.view hash r) :
    (∃ next, (commit hash db r stage).2 = .at next r ∧
      view (commit hash db r stage).1 r.actionId = next.view hash r) ∨
    ((commit hash db r stage).2 = .idle ∧ view (commit hash db r stage).1 r.actionId =
      (some (settle r.linked), [r.packet hash])) := by
  unfold commit
  cases stage with
  | waitForHuman =>
    left
    cases gate : r.gate with
    | some workflow => exact ⟨_, rfl, (view_congr rfl rfl _).trans found⟩
    | none =>
      refine ⟨_, rfl, found.trans ?_⟩
      show _ = (some (settle r.linked), [])
      rw [linked_of_gate gate]
      rfl
  | approval =>
    left
    cases gate : r.gate with
    | some workflow => exact ⟨_, rfl, (view_congr rfl rfl _).trans found⟩
    | none =>
      refine ⟨_, rfl, found.trans ?_⟩
      show _ = (some (settle r.linked), [])
      rw [linked_of_gate gate]
      rfl
  | approvalRecord => exact .inl ⟨_, rfl, (view_congr rfl rfl _).trans found⟩
  | link =>
    refine .inl ⟨_, rfl, (view_link r.approval).trans ?_⟩
    rw [if_pos rfl, found]
    rfl
  | packet =>
    refine .inl ⟨_, rfl, view_packet.trans ?_⟩
    rw [if_pos rfl, found]
    rfl
  | packetRecord => exact .inl ⟨_, rfl, (view_congr rfl rfl _).trans found⟩
  | requestedRecord => exact .inr ⟨rfl, (view_congr rfl rfl _).trans found⟩

/-- Decisions are nothing to the view of an action. -/
theorem view_decide (actionId : String) (status : ExternalActionStatus) (k : String) :
    view { db with
      externalActions := Table.update ExternalAction.id db.externalActions actionId
        fun action => { action with status } } k = view db k := by
  have keeps : ∀ action : ExternalAction, { action with status }.id = action.id := fun _ => rfl
  unfold view Database.action
  by_cases own : k = actionId
  · rw [own, Table.get_update_self keeps, Option.map_map]
    rfl
  · rw [Table.get_update_of_ne keeps own]

omit [DecidableEq P] in
theorem inv_decide {actionId : String} {status : ExternalActionStatus} (inv : Inv hash s) :
    Inv hash { s with
      db := { s.db with
        externalActions := Table.update ExternalAction.id s.db.externalActions actionId
          fun action => { action with status } } } := by
  refine ⟨?_, inv.kept.still (view_decide actionId status), inv.trail⟩
  have keeps : ∀ action : ExternalAction, { action with status }.id = action.id := fun _ => rfl
  show ((Table.update ExternalAction.id s.db.externalActions actionId _).map _).Nodup
  rw [Table.keys_update keeps]
  exact inv.keys

/-- A process that stops holds what it held. -/
theorem inv_stop {p : P} {r : Request} (inv : Inv hash s) (at_ : s.phase p = .at stage r) :
    Inv hash (s.move p s.db (.stopped stage r)) := by
  refine ⟨inv.keys, inv.kept.relabel ?_ ?_ fun _ => rfl, inv.trail⟩
  · rw [at_]
    rfl
  · rw [at_]
    rfl

theorem commit_keys :
    (commit hash db r stage).1.externalActions.map ExternalAction.id =
      db.externalActions.map ExternalAction.id := by
  unfold commit
  cases stage with
  | waitForHuman => cases r.gate <;> rfl
  | approval => cases r.gate <;> rfl
  | link => exact Table.keys_update fun _ => rfl
  | _ => rfl

theorem commit_packets : db.evidencePackets <+: (commit hash db r stage).1.evidencePackets := by
  unfold commit
  cases stage with
  | waitForHuman => cases r.gate <;> exact List.prefix_refl _
  | approval => cases r.gate <;> exact List.prefix_refl _
  | packet => exact List.prefix_append _ _
  | _ => exact List.prefix_refl _

/-- The record of a request is its last commit. -/
theorem commit_trail {entry : AuditLog}
    (member : entry ∈ (commit hash db r stage).1.auditLogs)
    (requested : entry.action = .externalActionRequested) :
    entry ∈ db.auditLogs ∨ stage = .requestedRecord ∧ entry = r.requestedRecord hash := by
  unfold commit at member
  cases stage with
  | waitForHuman => cases gate : r.gate <;> simp only [gate] at member <;> exact .inl member
  | approval => cases gate : r.gate <;> simp only [gate] at member <;> exact .inl member
  | approvalRecord =>
    rcases List.mem_append.mp member with old | new
    · exact .inl old
    · rw [List.mem_singleton.mp new] at requested
      cases requested
  | packetRecord =>
    rcases List.mem_append.mp member with old | new
    · exact .inl old
    · rw [List.mem_singleton.mp new] at requested
      cases requested
  | requestedRecord =>
    rcases List.mem_append.mp member with old | new
    · exact .inl old
    · exact .inr ⟨rfl, List.mem_singleton.mp new⟩
  | link => exact .inl member
  | packet => exact .inl member

theorem mem_of_view {packet : EvidencePacket} {k : String} (member : packet ∈ (view db k).2) :
    packet ∈ db.evidencePackets := (List.mem_filter.mp member).1

theorem inv_commit {p : P} {r : Request} (inv : Inv hash s) (at_ : s.phase p = .at stage r) :
    Inv hash (s.move p (commit hash s.db r stage).1 (commit hash s.db r stage).2) := by
  have held : (s.phase p).key = some r.actionId := by rw [at_]; rfl
  have found : view s.db r.actionId = stage.view hash r := by
    have law := inv.kept.laws p r.actionId held
    rw [at_] at law
    exact law
  refine ⟨?_, ?_, ?_⟩
  · show ((commit hash s.db r stage).1.externalActions.map _).Nodup
    rw [commit_keys]
    exact inv.keys
  · rcases commit_view found with ⟨next, later, here⟩ | ⟨ended, here⟩
    · rw [later]
      exact inv.kept.advance held rfl here fun _ => commit_others
    · rw [ended]
      exact inv.kept.finish held rfl (.inr ⟨r, rfl, here⟩) fun _ => commit_others
  · intro entry member requested
    rcases commit_trail member requested with old | ⟨rfl, new⟩
    · obtain ⟨other, same, packet⟩ := inv.trail entry old requested
      exact ⟨other, same, commit_packets.subset packet⟩
    · refine ⟨r, new, commit_packets.subset (mem_of_view (k := r.actionId) ?_)⟩
      rw [found]
      exact List.mem_singleton_self _

theorem view_insert {k : String} :
    view (db.propose r.row) k =
      if k = r.actionId then ((view db k).1.or (some (settle r.row)), (view db k).2)
      else view db k := by
  unfold view Database.action EvidenceDatabase.propose
  rw [Table.get_append]
  by_cases own : k = r.actionId
  · subst own
    cases Table.get ExternalAction.id db.externalActions r.actionId <;> simp [Request.row]
  · have other : r.row.id ≠ k := Ne.symm own
    rw [if_neg own, if_neg other, Option.or_none]

omit [DecidableEq P] in
/-- Nobody knows of an action that is not there. -/
theorem fresh_view {k : String} (inv : Inv hash s)
    (fresh : k ∉ s.db.externalActions.map ExternalAction.id) :
    view s.db k = (none, []) ∧ ∀ p, (s.phase p).key ≠ some k := by
  have absent : (view s.db k).1 = none := by
    unfold view Database.action
    rw [Table.get_eq_none.mpr fresh]
    rfl
  have unheld : ∀ p, (s.phase p).key ≠ some k := by
    intro p held
    have found : view s.db k = (s.phase p).expects hash := inv.kept.laws p k held
    rw [found] at absent
    cases phase : s.phase p with
    | idle =>
      rw [phase] at held
      cases held
    | «at» stage r =>
      rw [phase] at absent
      cases stage <;> cases absent
    | stopped stage r =>
      rw [phase] at absent
      cases stage <;> cases absent
  refine ⟨?_, unheld⟩
  rcases inv.kept.complete unheld with empty | ⟨r, _, there⟩
  · exact empty
  · have there : view s.db k = _ := there
    rw [there] at absent
    cases absent

theorem inv_request {p : P} {r : Request} (inv : Inv hash s) (idle : s.phase p = .idle)
    (fresh : r.actionId ∉ s.db.externalActions.map ExternalAction.id) :
    Inv hash (s.move p (s.db.propose r.row)
      (.at (if r.gate.isSome then .waitForHuman else .packet) r)) := by
  obtain ⟨empty, unheld⟩ := fresh_view inv fresh
  refine ⟨Table.nodup_append inv.keys fresh, ?_, inv.trail⟩
  refine inv.kept.begin (by rw [idle]; rfl) unheld rfl ?_ fun k other =>
    view_insert.trans (if_neg other)
  refine (view_insert.trans (if_pos rfl)).trans ?_
  rw [empty]
  cases gate : r.gate with
  | some workflow => rfl
  | none =>
    show _ = (some (settle r.linked), [])
    rw [linked_of_gate gate]
    rfl

theorem inv_step (inv : Inv hash s) (taken : step hash s e = some t) : Inv hash t := by
  cases e with
  | request p r =>
    simp only [step] at taken
    split at taken
    · rename_i idle
      split at taken
      · rename_i fresh
        obtain rfl := Option.some.inj taken
        exact inv_request inv idle fresh
      · cases taken
    · cases taken
  | commit p =>
    simp only [step] at taken
    split at taken
    · rename_i stage r at_
      obtain rfl := Option.some.inj taken
      exact inv_commit inv at_
    · cases taken
  | stop p =>
    simp only [step] at taken
    split at taken
    · rename_i stage r at_
      obtain rfl := Option.some.inj taken
      exact inv_stop inv at_
    · cases taken
  | decide actionId status =>
    obtain rfl := Option.some.inj taken
    exact inv_decide inv

omit [DecidableEq P] in
theorem inv_initial (initial : Initial s) : Inv hash s := by
  refine ⟨?_, ?_, ?_⟩
  · rw [initial.actions]
    exact List.nodup_nil
  · apply Kept.initial
    · intro p
      rw [initial.idle p]
      rfl
    · intro k
      left
      show view s.db k = _
      unfold view Database.action
      rw [initial.actions, initial.packets]
      rfl
  · intro entry member requested
    exact absurd requested (initial.log entry member)

theorem inv_reachable (reach : Reachable Initial (ofPartial (step hash)) s) : Inv hash s := by
  obtain ⟨start, es, initial, run⟩ := reach
  exact run.invariant (fun _ _ _ inv taken => inv_step inv taken) (inv_initial initial)

end Step

section Packets

variable {P : Type} [DecidableEq P] {hash : Value → String} {s t : World P}

omit [DecidableEq P] in
/-- Of a packet there is its action, settled as the request left it, and no other packet. -/
theorem packet_view (inv : Inv hash s) {packet : EvidencePacket}
    (member : packet ∈ s.db.evidencePackets) :
    ∃ r : Request, packet = r.packet hash ∧
      view s.db packet.externalActionId = (some (settle r.linked), [packet]) := by
  have listed : packet ∈ (view s.db packet.externalActionId).2 :=
    List.mem_filter.mpr ⟨member, beq_self_eq_true _⟩
  have linked : ∀ r : Request, view s.db packet.externalActionId =
      (some (settle r.linked), [r.packet hash]) → ∃ r : Request, packet = r.packet hash ∧
        view s.db packet.externalActionId = (some (settle r.linked), [packet]) := by
    intro r there
    rw [there] at listed
    obtain rfl := List.mem_singleton.mp listed
    exact ⟨r, rfl, there⟩
  have staged : ∀ stage r, view s.db packet.externalActionId = Stage.view hash r stage →
      ∃ r : Request, packet = r.packet hash ∧
        view s.db packet.externalActionId = (some (settle r.linked), [packet]) := by
    intro stage r found
    cases stage with
    | packetRecord => exact linked r found
    | requestedRecord => exact linked r found
    | _ =>
      rw [found] at listed
      cases listed
  rcases inv.kept.done packet.externalActionId with ⟨p, held⟩ | empty | ⟨r, _, there⟩
  · have found : view s.db packet.externalActionId = (s.phase p).expects hash :=
      inv.kept.laws p _ held
    cases phase : s.phase p with
    | idle =>
      replace held : (s.phase p).key = _ := held
      rw [phase] at held
      cases held
    | «at» stage r => exact staged stage r (by rw [found, phase]; rfl)
    | stopped stage r => exact staged stage r (by rw [found, phase]; rfl)
  · have empty : view s.db packet.externalActionId = _ := empty
    rw [empty] at listed
    cases listed
  · exact linked r there

/-- The packet of a request attests every row that differs from its action by its status. -/
theorem attests_packet {r : Request} {action : ExternalAction}
    (settled : settle action = settle r.linked) : Attests hash (r.packet hash) action := by
  obtain ⟨id, workflowId, agentId, actionType, summary, payload, riskLevel, requiresApproval,
    approvalId, status⟩ := action
  simp only [settle, ExternalAction.mk.injEq, and_true] at settled
  obtain ⟨rfl, rfl, rfl, rfl, rfl, rfl, rfl, rfl, rfl⟩ := settled
  exact ⟨rfl, rfl, rfl, rfl, rfl, rfl, rfl, rfl, rfl, rfl, rfl⟩

theorem action_of_view {db : EvidenceDatabase} {k : String} {action : ExternalAction}
    {packets : List EvidencePacket} (found : view db k = (some (settle action), packets)) :
    ∃ row, db.action k = some row ∧ settle row = settle action :=
  Option.map_eq_some_iff.mp (congrArg Prod.fst found)

/-- Elements that are each the only one with their key have distinct keys. -/
theorem nodup_of_alone {α κ : Type} [DecidableEq κ] {key : α → κ} {xs : List α}
    (alone : ∀ x ∈ xs, xs.filter (fun y => key y == key x) = [x]) : (xs.map key).Nodup := by
  rw [List.nodup_iff_count_le_one]
  intro k
  by_cases member : k ∈ xs.map key
  · obtain ⟨x, inside, rfl⟩ := List.mem_map.mp member
    rw [List.count, List.countP_map, List.countP_eq_length_filter]
    exact (congrArg List.length (alone x inside)).le
  · rw [List.count_eq_zero_of_not_mem member]
    exact Nat.zero_le 1

/-- However requests, decisions and stops interleave: a packet attests the committed row of its
action, and no action has two; an action without one belongs to a request that is under way or was
stopped; and a request that is on record has its packet. -/
theorem packets_attest (reach : Reachable Initial (ofPartial (step hash)) s) :
    (∀ packet ∈ s.db.evidencePackets, ∃ action,
      s.db.action packet.externalActionId = some action ∧ Attests hash packet action) ∧
    (s.db.evidencePackets.map EvidencePacket.externalActionId).Nodup ∧
    (∀ action ∈ s.db.externalActions,
      (∃ packet ∈ s.db.evidencePackets, packet.externalActionId = action.id) ∨
        ∃ p, (s.phase p).key = some action.id) ∧
    ∀ entry ∈ s.db.auditLogs, entry.action = .externalActionRequested →
      ∃ packet ∈ s.db.evidencePackets,
        entry.metadata.get "evidence_packet_id" = some (.string packet.id) ∧
        entry.metadata.get "external_action_id" = some (.string packet.externalActionId) := by
  have inv := inv_reachable reach
  refine ⟨?_, ?_, ?_, ?_⟩
  · intro packet member
    obtain ⟨r, rfl, found⟩ := packet_view inv member
    obtain ⟨action, there, settled⟩ := action_of_view found
    exact ⟨action, there, attests_packet settled⟩
  · apply nodup_of_alone
    intro packet member
    obtain ⟨r, _, found⟩ := packet_view inv member
    exact congrArg Prod.snd found
  · intro action member
    rcases inv.kept.done action.id with held | empty | ⟨r, key, found⟩
    · exact .inr held
    · have there : s.db.action action.id = some action := Table.get_of_mem inv.keys member
      have gone : (s.db.action action.id).map settle = none := congrArg Prod.fst empty
      rw [there] at gone
      cases gone
    · refine .inl ⟨r.packet hash, mem_of_view (k := action.id) ?_, key⟩
      have found : view s.db action.id = _ := found
      rw [found]
      exact List.mem_singleton_self _
  · intro entry member requested
    obtain ⟨r, rfl, packet⟩ := inv.trail entry member requested
    exact ⟨r.packet hash, packet, rfl, rfl⟩

/-- A row that differs from an action's at most by its status and the order of its payload. -/
structure SameRequest (action row : ExternalAction) : Prop where
  id : row.id = action.id
  workflowId : row.workflowId = action.workflowId
  agentId : row.agentId = action.agentId
  actionType : row.actionType = action.actionType
  summary : row.summary = action.summary
  riskLevel : row.riskLevel = action.riskLevel
  requiresApproval : row.requiresApproval = action.requiresApproval
  approvalId : row.approvalId = action.approvalId
  payload : EqUpToOrder row.payload action.payload

theorem orNull_injective : Function.Injective orNull := by
  intro a b same
  cases a <;> cases b <;> simp_all [orNull]

/-- With an injective digest two payloads have one hash exactly if only the order of their members
differs. -/
theorem hashes_agree {sha256 : List UInt8 → List UInt8} (lit : Lib.Json.Literals.LiteralPrinter)
    (collisionFree : Function.Injective sha256) {p q : Value} (hp : DistinctKeys p)
    (hq : DistinctKeys q) : hashJson sha256 lit p = hashJson sha256 lit q ↔ EqUpToOrder p q := by
  rw [← canonicalize_eq_iff p q hp hq]
  constructor
  · intro same
    have texts := collisionFree (Lib.Bytes.hexEncode_injective same)
    exact Lib.Json.Compact.compact_injective lit
      (String.ofList_injective (Lib.Bytes.utf8_injective texts))
  · intro same
    simp only [hashJson, same]

theorem attests_iff {sha256 : List UInt8 → List UInt8} {lit : Lib.Json.Literals.LiteralPrinter}
    (collisionFree : Function.Injective sha256) {packet : EvidencePacket}
    {action row : ExternalAction} (attests : Attests (hashJson sha256 lit) packet action)
    (own : DistinctKeys action.payload) (distinct : DistinctKeys row.payload) :
    Attests (hashJson sha256 lit) packet row ↔ SameRequest action row := by
  constructor
  · intro other
    have bool : ∀ {a b : Bool}, Value.bool a = .bool b → a = b := fun same => by
      cases same
      rfl
    refine ⟨other.externalActionId.symm.trans attests.externalActionId,
      other.workflowId.symm.trans attests.workflowId, other.agentId.symm.trans attests.agentId,
      ?_, other.intent.symm.trans attests.intent, ?_, ?_, ?_, ?_⟩
    · exact Value.string.inj (Option.some.inj (other.actionType.symm.trans attests.actionType))
    · exact Value.string.inj (Option.some.inj (other.riskLevel.symm.trans attests.riskLevel))
    · exact bool (Option.some.inj (other.requiresApproval.symm.trans attests.requiresApproval))
    · exact orNull_injective
        (Option.some.inj (other.approvalId.symm.trans attests.approvalId))
    · exact (hashes_agree lit collisionFree distinct own).mp (Value.string.inj
        (Option.some.inj (other.payloadHash.symm.trans attests.payloadHash)))
  · intro same
    have hash := (hashes_agree lit collisionFree distinct own).mpr same.payload
    exact ⟨attests.externalActionId.trans same.id.symm,
      attests.workflowId.trans same.workflowId.symm, attests.agentId.trans same.agentId.symm,
      attests.intent.trans same.summary.symm, same.requiresApproval ▸ attests.status,
      attests.contextHash, same.actionType ▸ attests.actionType,
      same.riskLevel ▸ attests.riskLevel, same.requiresApproval ▸ attests.requiresApproval,
      same.approvalId ▸ attests.approvalId, hash ▸ attests.payloadHash⟩

theorem step_packets {e : Event P} (taken : step hash s e = some t) :
    s.db.evidencePackets <+: t.db.evidencePackets := by
  cases e with
  | request p r =>
    simp only [step] at taken
    split at taken
    · split at taken
      · obtain rfl := Option.some.inj taken
        exact List.prefix_refl _
      · cases taken
    · cases taken
  | commit p =>
    simp only [step] at taken
    split at taken
    · obtain rfl := Option.some.inj taken
      exact commit_packets
    · cases taken
  | stop p =>
    simp only [step] at taken
    split at taken
    · obtain rfl := Option.some.inj taken
      exact List.prefix_refl _
    · cases taken
  | decide actionId status =>
    obtain rfl := Option.some.inj taken
    exact List.prefix_refl _

/-- A packet stays, and with a collision-free digest it pins its action down: whatever is decided
later, it attests exactly the rows that say what was requested. A payload's numbers are those of the
core's parser: Python's integers beyond 64 bits reach it as floats, and those of one float share a
digest. -/
theorem packet_pins {sha256 : List UInt8 → List UInt8} {lit : Lib.Json.Literals.LiteralPrinter}
    (collisionFree : Function.Injective sha256) {es : List (Event P)}
    (reach : Reachable Initial (ofPartial (step (hashJson sha256 lit))) s)
    {packet : EvidencePacket} (member : packet ∈ s.db.evidencePackets)
    (run : Run (ofPartial (step (hashJson sha256 lit))) s es t) :
    packet ∈ t.db.evidencePackets ∧ ∃ action, t.db.action packet.externalActionId = some action ∧
      ∀ row : ExternalAction, DistinctKeys row.payload →
        (Attests (hashJson sha256 lit) packet row ↔ SameRequest action row) := by
  have kept : packet ∈ t.db.evidencePackets :=
    run.invariant (I := fun s => packet ∈ s.db.evidencePackets)
      (fun _ _ _ inside taken => (step_packets taken).subset inside) member
  refine ⟨kept, ?_⟩
  have inv : Inv (hashJson sha256 lit) t :=
    run.invariant (fun _ _ _ inv taken => inv_step inv taken) (inv_reachable reach)
  obtain ⟨r, rfl, found⟩ := packet_view inv kept
  obtain ⟨action, there, settled⟩ := action_of_view found
  have payload : action.payload = r.payload := congrArg ExternalAction.payload settled
  refine ⟨action, there, fun row distinct => ?_⟩
  exact attests_iff collisionFree (attests_packet settled) (payload ▸ r.distinct) distinct

end Packets

section Sample

open BusinessOs.Lib.Bytes (utf8)
open BusinessOs.Lib.Json.Literals (plainPrinter)

def sampleWorkflow : Workflow :=
  .new "w" "lead_qualification" "Acme" (.object []) "api" 0

def sampleRequest : Request where
  workflow := some (.load sampleWorkflow)
  source := "api"
  agent := none
  actionType := "send_email"
  summary := "Mail"
  payload := .object [("to", .string "ops")]
  classification := ⟨"high", true, ["r"]⟩
  actionId := "x"
  approvalId := "p"
  packetId := "k"
  distinct := ⟨by simp, by simp [Core.HashJson.DistinctMembers, DistinctKeys]⟩

def samplePayloadText : String := "\x7b\"to\":\"ops\"\x7d"

def sampleArtifactsText : String :=
  "\x7b\"action_type\":\"send_email\",\"agent\":\x7b\"id\":null,\"role\":null," ++
  "\"trust_level\":null\x7d,\"approval_id\":\"p\",\"guardrail_reasons\":[\"r\"]," ++
  "\"intent\":\"Mail\",\"payload_hash\":" ++
  "\"623d3cec5eddbe3fb71bc8124f609f59cffbcfdee408aba4074a6287e59368a3\"," ++
  "\"policy\":\x7b\"human_approval_required\":true,\"mode\":\"fail-close\"," ++
  "\"tool_boundary\":\"external_action\"\x7d,\"requires_approval\":true," ++
  "\"risk_level\":\"high\",\"workflow\":\x7b\"id\":\"w\"," ++
  "\"kind\":\"lead_qualification\",\"source\":\"api\"\x7d\x7d"

/-- SHA-256's digest of the sample's payload. -/
def samplePayloadDigest : List UInt8 :=
  [98, 61, 60, 236, 94, 221, 190, 63, 183, 27, 200, 18, 79, 96, 159, 89, 207, 251, 207, 222, 228,
    8, 171, 164, 7, 74, 98, 135, 229, 147, 104, 163]

/-- SHA-256's digest of the sample's artifacts. -/
def sampleArtifactsDigest : List UInt8 :=
  [247, 179, 242, 5, 218, 29, 71, 5, 15, 62, 30, 20, 210, 113, 133, 190, 114, 85, 169, 138, 127,
    134, 154, 127, 180, 50, 110, 223, 47, 23, 243, 245]

/-- An injective function that has SHA-256's digests of the sample's texts. -/
def sampleSha256 (text : List UInt8) : List UInt8 :=
  if text = utf8 samplePayloadText then samplePayloadDigest
  else if text = utf8 sampleArtifactsText then sampleArtifactsDigest
  else text ++ List.replicate 33 0

theorem sampleSha256_injective : Function.Injective sampleSha256 := by
  have apart : samplePayloadDigest ≠ sampleArtifactsDigest := by decide
  have long : ∀ text : List UInt8, samplePayloadDigest ≠ text ++ List.replicate 33 0 ∧
      sampleArtifactsDigest ≠ text ++ List.replicate 33 0 := by
    intro text
    constructor <;>
    · intro same
      have lengths := congrArg List.length same
      simp [samplePayloadDigest, sampleArtifactsDigest] at lengths
  intro x y same
  unfold sampleSha256 at same
  split_ifs at same with hx hy hy' hx' hy hy' hy hy'
  · exact hx.trans hy.symm
  · exact absurd same apart
  · exact absurd same (long y).1
  · exact absurd same.symm apart
  · exact hx'.trans hy'.symm
  · exact absurd same (long y).2
  · exact absurd same.symm (long x).1
  · exact absurd same.symm (long x).2
  · exact List.append_cancel_right same

def sampleHash : Value → String := hashJson sampleSha256 plainPrinter

example : (sampleRequest.packet sampleHash).contextHash =
    "f7b3f205da1d47050f3e1e14d27185be7255a98a7f869a7fb4326edf2f17f3f5" := by decide +kernel

/-- A second request, which is stopped behind its first commit. -/
def sampleStopped : Request :=
  { sampleRequest with workflow := none, actionId := "y", packetId := "l" }

def sampleEvents : List (Event Bool) :=
  [.request true sampleRequest, .commit true, .commit true, .commit true, .commit true,
    .decide "x" .approved, .request false sampleStopped, .stop false, .commit true, .commit true,
    .commit true]

def sampleStart : World Bool where
  db := { Database.empty with workflows := [sampleWorkflow], evidencePackets := [] }
  phase := fun _ => .idle

theorem sampleStart_initial : Initial sampleStart :=
  ⟨fun _ => rfl, rfl, rfl, by simp [sampleStart, Database.empty]⟩

theorem sampleEvents_run : ∃ t, Run (ofPartial (step sampleHash)) sampleStart sampleEvents t ∧
    t.db.evidencePackets = [sampleRequest.packet sampleHash] := by
  have runs : (sampleEvents.foldlM (step sampleHash) sampleStart).map
      (fun t => t.db.evidencePackets) = some [sampleRequest.packet sampleHash] := rfl
  obtain ⟨t, last, packets⟩ := Option.map_eq_some_iff.mp runs
  exact ⟨t, .of_foldlM last, packets⟩

theorem packets_attest_sample : ∃ t, Run (ofPartial (step sampleHash)) sampleStart sampleEvents t ∧
    ∃ action, t.db.action "x" = some action ∧
      Attests sampleHash (sampleRequest.packet sampleHash) action := by
  obtain ⟨t, run, packets⟩ := sampleEvents_run
  have attested := (packets_attest ⟨sampleStart, sampleEvents, sampleStart_initial, run⟩).1
  exact ⟨t, run, attested _ (by rw [packets]; exact List.mem_singleton_self _)⟩

theorem packet_pins_sample : ∃ t, Run (ofPartial (step sampleHash)) sampleStart sampleEvents t ∧
    ∃ action, t.db.action "x" = some action ∧
      ∀ row : ExternalAction, DistinctKeys row.payload →
        (Attests sampleHash (sampleRequest.packet sampleHash) row ↔ SameRequest action row) := by
  obtain ⟨t, run, packets⟩ := sampleEvents_run
  have reach : Reachable Initial (ofPartial (step (hashJson sampleSha256 plainPrinter))) t :=
    ⟨sampleStart, sampleEvents, sampleStart_initial, run⟩
  have member : sampleRequest.packet sampleHash ∈ t.db.evidencePackets := by
    rw [packets]
    exact List.mem_singleton_self _
  exact ⟨t, run, (packet_pins sampleSha256_injective reach member (.nil t)).2⟩

end Sample

end BusinessOs.App.EvidencePackets
