/- Source: rust/src/pipeline.rs (health_check, stats)
   digest: The façade's health and statistics are the books of its calls, over all subsystems. -/

import BusinessOs.Core.Facade
import BusinessOs.Core.RateLimit.GuardRuns
import BusinessOs.Core.RetryRuns

set_option autoImplicit false
set_option relaxedAutoImplicit false

namespace BusinessOs.Core.FacadeHealth

open BusinessOs.Lib.Chrono BusinessOs.Lib.Execution BusinessOs.Lib.Json.Tree
open BusinessOs.Core.Types BusinessOs.Core.Approval BusinessOs.Core.Audit BusinessOs.Core.Dispatch
open BusinessOs.Core.RateLimit.Bucket BusinessOs.Core.RateLimit.Guard BusinessOs.Core.Facade

universe u

structure SystemHealth where
  auditEntries : ℕ
  pendingApprovals : ℕ
  registeredAgents : ℕ
  rateLimitBuckets : ℕ
  circuitBreakers : ℕ
  deriving DecidableEq

structure SystemStats where
  totalWorkflows : ℕ
  completedWorkflows : ℕ
  failedWorkflows : ℕ
  pendingWorkflows : ℕ
  totalApprovals : ℕ
  approvedCount : ℕ
  rejectedCount : ℕ
  deriving DecidableEq

def kinds : List WorkflowKind :=
  [.leadQualification, .clientOnboarding, .deliveryMonitoring, .financeOperations,
    .knowledgeCommunication]

variable {ω : Type u}

/-- The number of kinds with an agent. -/
def registryLen (registry : AgentRegistry ω) : ℕ :=
  kinds.countP fun kind => (registry.get kind).isSome

def healthCheck (os : BusinessOS ω) : SystemHealth where
  auditEntries := os.audit.entries.length
  pendingApprovals := os.approvals.pending.length
  registeredAgents := registryLen os.orchestrator.registry
  rateLimitBuckets := os.guard.rateLimiter.bucketCount
  circuitBreakers := os.guard.circuitBreakers.entries.length

/-- The façade keeps no workflows: their counts are constants. -/
def stats (os : BusinessOS ω) : SystemStats where
  totalWorkflows := 0
  completedWorkflows := 0
  failedWorkflows := 0
  pendingWorkflows := 0
  totalApprovals := os.approvals.stats.totalRequested
  approvedCount := os.approvals.stats.approvedCount
  rejectedCount := os.approvals.stats.rejectedCount

/-! What a call does to the books. -/

def asks (e : Event ω) : Bool :=
  match e.call with
  | .requestApproval _ _ _ _ _ _ _ => true
  | _ => false

/-- A decision that was taken. -/
def decides (decision : ApprovalDecision) (e : Event ω) : Bool :=
  match e.reply with
  | .decided (.ok _) => e.call.decision.any fun d => d.decision == decision
  | _ => false

def agentKind (e : Event ω) : Option WorkflowKind :=
  match e.call with
  | .withAgent kind _ => some kind
  | _ => none

def circuitName (e : Event ω) : Option String :=
  match e.call with
  | .registerCircuit name _ _ => some name
  | _ => none

def limitedKey (e : Event ω) : Option String :=
  match e.call with
  | .checkRateLimit key _ => some key
  | _ => none

/-- The books after the calls `es`: counts of calls, and of the different names in them. -/
structure Books (es : List (Event ω)) (os : BusinessOS ω) : Prop where
  log : (healthCheck os).auditEntries =
    es.countP asks + es.countP (decides .approved) + es.countP (decides .rejected)
  pending : (healthCheck os).pendingApprovals + es.countP (decides .approved) +
    es.countP (decides .rejected) = es.countP asks
  agents : (healthCheck os).registeredAgents = (es.filterMap agentKind).dedup.length
  buckets : (healthCheck os).rateLimitBuckets = (es.filterMap limitedKey).dedup.length
  circuits : (healthCheck os).circuitBreakers = (es.filterMap circuitName).dedup.length
  total : (stats os).totalApprovals = es.countP asks
  approved : (stats os).approvedCount = es.countP (decides .approved)
  rejected : (stats os).rejectedCount = es.countP (decides .rejected)

/-- The approval part of the books, as the two stores have it. -/
structure Accounts (es : List (Event ω)) (os : BusinessOS ω) : Prop where
  opened : PendingOpen os
  log : os.audit.entries.length = es.countP asks + os.approvals.decided.length
  all : os.approvals.pending.length + os.approvals.decided.length = es.countP asks
  approved : (os.approvals.decided.countP fun a => a.status == .approved) =
    es.countP (decides .approved)
  rejected : (os.approvals.decided.countP fun a => a.status == .rejected) =
    es.countP (decides .rejected)
  told : ∀ a ∈ os.approvals.decided, a.status = .approved ∨ a.status = .rejected

section Approvals

variable {os next : BusinessOS ω} {e : Event ω} {es : List (Event ω)}

theorem countP_snoc {p : Event ω → Bool} : (es ++ [e]).countP p = es.countP p + (p e).toNat := by
  rw [List.countP_append, List.countP_singleton]
  cases p e <;> rfl

/-- A call that neither asks nor decides leaves the accounts as they are. -/
theorem Accounts.still (accounts : Accounts es os) (audit : next.audit = os.audit)
    (approvals : next.approvals = os.approvals) (asked : asks e = false)
    (decided : ∀ decision, decides decision e = false) : Accounts (es ++ [e]) next := by
  refine ⟨?_, ?_, ?_, ?_, ?_, ?_⟩
  · unfold PendingOpen
    rw [approvals]
    exact accounts.opened
  · rw [audit, approvals, countP_snoc, asked]
    exact accounts.log
  · rw [approvals, countP_snoc, asked]
    exact accounts.all
  · rw [approvals, countP_snoc, decided]
    exact accounts.approved
  · rw [approvals, countP_snoc, decided]
    exact accounts.rejected
  · rw [approvals]
    exact accounts.told

theorem decides_of_reply (silent : ∀ approval, e.reply ≠ .decided (.ok approval))
    (decision : ApprovalDecision) : decides decision e = false := by
  unfold decides
  split
  · rename_i approval reply
    exact absurd reply (silent approval)
  · rfl

theorem asks_of_decision {d : Decision} (decision : e.call.decision = some d) : asks e = false := by
  unfold asks
  split
  · rename_i call
    rw [call] at decision
    cases decision
  · rfl

theorem record_verdict (d : Decision) (a : HumanApproval) :
    ((d.record a).status == .approved) = (d.decision == .approved) ∧
      ((d.record a).status == .rejected) = (d.decision == .rejected) := by
  obtain ⟨id, decision, decidedBy, note, decidedAt⟩ := d
  cases decision <;> exact ⟨rfl, rfl⟩

theorem Accounts.change (accounts : Accounts es os) (change : Change os e next) :
    Accounts (es ++ [e]) next := by
  have opened := change.pendingOpen accounts.opened
  cases change with
  | withAgent kind agent => exact accounts.still rfl rfl rfl fun _ => rfl
  | guard guard decision stamp subject ran decided =>
    refine accounts.still rfl rfl ?_ (decides_of_reply fun approval => decided _)
    unfold asks
    split
    · rename_i call
      rw [call] at stamp
      cases stamp
    · rfl
  | submit kind payload source uuid now stamp world r =>
    exact accounts.still rfl rfl rfl fun _ => rfl
  | refuse decision subject reply =>
    refine accounts.still rfl rfl (asks_of_decision decision) (decides_of_reply ?_)
    intro approval answer
    rw [reply] at answer
    cases answer
  | request workflowId title reason action uuid now stamp =>
    refine ⟨opened, ?_, ?_, ?_, ?_, accounts.told⟩
    · rw [countP_snoc]
      show (os.audit.entries ++ [_]).length = _ + 1 + os.approvals.decided.length
      rw [List.length_append, List.length_singleton, accounts.log]
      omega
    · rw [countP_snoc]
      show (os.approvals.pending ++ [_]).length + os.approvals.decided.length = _ + 1
      rw [List.length_append, List.length_singleton, ← accounts.all]
      omega
    · rw [countP_snoc]
      exact accounts.approved
    · rw [countP_snoc]
      exact accounts.rejected
  | @decide _ d i a stamp entry decision stamped at_ subject reply action about actor timestamp =>
    have asked := asks_of_decision decision
    have taken : ∀ verdict, decides verdict e = (d.decision == verdict) := by
      intro verdict
      unfold decides
      rw [reply, decision]
      rfl
    have inside : i < os.approvals.pending.length := (List.getElem?_eq_some_iff.mp at_).1
    have shorter := List.length_eraseIdx_of_lt inside
    refine ⟨opened, ?_, ?_, ?_, ?_, ?_⟩
    · rw [countP_snoc, asked]
      show (os.audit.entries ++ [entry]).length = _ + (os.approvals.decided ++ [_]).length
      rw [List.length_append, List.length_append, accounts.log]
      rfl
    · rw [countP_snoc, asked, ← accounts.all]
      show (os.approvals.pending.eraseIdx i).length + (os.approvals.decided ++ [_]).length = _
      rw [List.length_append, List.length_singleton, shorter]
      show _ = _ + 0
      omega
    · rw [countP_snoc, taken]
      show (os.approvals.decided ++ [d.record a]).countP _ = _
      rw [List.countP_append, accounts.approved, List.countP_singleton]
      rw [(record_verdict d a).1]
      cases d.decision == .approved <;> rfl
    · rw [countP_snoc, taken]
      show (os.approvals.decided ++ [d.record a]).countP _ = _
      rw [List.countP_append, accounts.rejected, List.countP_singleton]
      rw [(record_verdict d a).2]
      cases d.decision == .rejected <;> rfl
    · intro other member
      rcases List.mem_append.mp member with old | last
      · exact accounts.told other old
      · obtain rfl := List.mem_singleton.mp last
        cases verdict : d.decision <;> simp [Decision.record, Decision.status, verdict]

end Approvals

/-! The names that the other subsystems know. -/

/-- The names that the agents, the limiter and the breakers go by. -/
structure Names (es : List (Event ω)) (os : BusinessOS ω) : Prop where
  agents : ∀ kind, (os.orchestrator.registry.get kind).isSome ↔ kind ∈ es.filterMap agentKind
  buckets : ∀ key, key ∈ os.guard.rateLimiter.buckets ↔ key ∈ es.filterMap limitedKey
  circuits : ∀ name, name ∈ os.guard.circuitBreakers ↔ name ∈ es.filterMap circuitName

section Names

variable {os next : BusinessOS ω} {e : Event ω} {es : List (Event ω)}

/-- A check opens the bucket of its key and no other one. -/
theorem check_keys {self limiter : RateLimiter} {key : String} {now : ℤ}
    {result : Except RateLimitError Unit} (checked : self.check key now = .ok (limiter, result))
    (other : String) : other ∈ limiter.buckets ↔ other = key ∨ other ∈ self.buckets := by
  have opened : ∀ other, other ∈ (self.ensureBucket key now).buckets ↔
      other = key ∨ other ∈ self.buckets := by
    intro other
    unfold RateLimiter.ensureBucket
    split_ifs with there
    · exact ⟨.inr, fun either => either.elim (fun same => same ▸ there) id⟩
    · exact AList.mem_insert _
  have refilled : ∀ {mid state}, self.refilled key now = .ok (mid, state) →
      ∀ other, other ∈ mid.buckets ↔ other = key ∨ other ∈ self.buckets := by
    intro mid state done other
    obtain ⟨filled, refill, rest⟩ := bind_eq_ok done
    have same : mid = filled := by
      cases held : filled.buckets.lookup key with
      | none => simp [held] at rest
      | some state =>
        simp only [held, Except.ok.injEq, Prod.mk.injEq] at rest
        exact rest.1.symm
    rw [same, ← opened other]
    unfold RateLimiter.refill at refill
    split at refill
    · rw [Except.ok.inj refill]
    · obtain ⟨credited, _, stored⟩ := bind_eq_ok refill
      obtain rfl := Except.ok.inj stored
      rw [AList.mem_insert, opened other]
      exact ⟨fun either => either.elim .inl id, .inr⟩
  obtain ⟨⟨mid, state⟩, done, rest⟩ := bind_eq_ok checked
  have before := refilled done other
  dsimp only at rest
  split_ifs at rest
  · obtain ⟨rfl, _⟩ := Prod.mk.inj (Except.ok.inj rest)
    rw [AList.mem_insert, before]
    exact ⟨fun either => either.elim .inl id, .inr⟩
  · obtain ⟨rfl, _⟩ := Prod.mk.inj (Except.ok.inj rest)
    exact before

theorem register_get (registry : AgentRegistry ω) (kind other : WorkflowKind) (agent : Agent ω) :
    (registry.register kind agent).get other =
      if other = kind then some agent else registry.get other :=
  Function.update_apply (β := Option (Agent ω)) registry kind (some agent) other

theorem recordDecision_keeps (os : BusinessOS ω)
    (answer : ApprovalService × Except ApprovalError HumanApproval)
    (record : String → AuditService) :
    (os.recordDecision answer record).1.orchestrator = os.orchestrator ∧
      (os.recordDecision answer record).1.guard = os.guard := by
  obtain ⟨approvals, result⟩ := answer
  cases result <;> exact ⟨rfl, rfl⟩

theorem mem_snoc {α : Type*} {f : Event ω → Option α} {a : α} :
    a ∈ (es ++ [e]).filterMap f ↔ f e = some a ∨ a ∈ es.filterMap f := by
  rw [List.filterMap_append, List.mem_append, or_comm]
  refine or_congr_left ?_
  cases seen : f e with
  | none => simp [seen]
  | some b => simp [seen, eq_comm]

theorem run_registry (o : Orchestrator ω) (workflow : Workflow) (world : ω) (r : Readings) :
    (o.runWorkflow workflow world r).1.registry = o.registry := by
  rcases RetryRuns.run_cases o workflow world r with ⟨_, outcome, _, settled⟩ | ⟨_, _, same, _⟩
  · exact settled.registry
  · rw [same]

/-- A call that introduces no name leaves the names as they are. -/
theorem Names.still (names : Names es os)
    (registry : next.orchestrator.registry = os.orchestrator.registry)
    (guard : next.guard = os.guard) (agent : agentKind e = none) (key : limitedKey e = none)
    (circuit : circuitName e = none) : Names (es ++ [e]) next := by
  refine ⟨fun kind => ?_, fun other => ?_, fun name => ?_⟩
  · rw [mem_snoc, agent, registry, names.agents kind]
    simp
  · rw [mem_snoc, key, guard, names.buckets other]
    simp
  · rw [mem_snoc, circuit, guard, names.circuits name]
    simp

theorem Names.step (names : Names es os) (step : Step os e next) : Names (es ++ [e]) next := by
  obtain ⟨call, reply⟩ := e
  cases call with
  | withAgent kind agent =>
    obtain ⟨rfl, rfl⟩ := Prod.mk.inj (Option.some.inj step)
    refine ⟨fun other => ?_, fun key => ?_, fun name => ?_⟩
    · rw [mem_snoc, ← names.agents other]
      show ((os.orchestrator.registry.register kind agent).get other).isSome ↔
        some kind = some other ∨ _
      rw [register_get, Option.some.injEq]
      split_ifs with same
      · exact iff_of_true rfl (.inl same.symm)
      · exact ⟨.inr, fun either => either.resolve_left fun equal => same equal.symm⟩
    · rw [mem_snoc, ← names.buckets key]
      exact ⟨.inr, fun either => either.elim (fun none_ => by cases none_) id⟩
    · rw [mem_snoc, ← names.circuits name]
      exact ⟨.inr, fun either => either.elim (fun none_ => by cases none_) id⟩
  | registerCircuit name failureThreshold timeoutSecs =>
    obtain ⟨rfl, rfl⟩ := Prod.mk.inj (Option.some.inj step)
    refine ⟨fun kind => ?_, fun key => ?_, fun other => ?_⟩
    · rw [mem_snoc, ← names.agents kind]
      exact ⟨.inr, fun either => either.elim (fun none_ => by cases none_) id⟩
    · rw [mem_snoc, ← names.buckets key]
      exact ⟨.inr, fun either => either.elim (fun none_ => by cases none_) id⟩
    · rw [mem_snoc, ← names.circuits other]
      show other ∈ os.guard.circuitBreakers.insert name _ ↔ some name = some other ∨ _
      rw [AList.mem_insert, Option.some.injEq, eq_comm]
  | submitAndRun kind payload source uuid now stamp world r =>
    obtain ⟨rfl, rfl⟩ := Prod.mk.inj (Option.some.inj step)
    exact names.still (run_registry _ _ world r) rfl rfl rfl rfl
  | requestApproval workflowId title reason action uuid now stamp =>
    obtain ⟨rfl, rfl⟩ := Prod.mk.inj (Option.some.inj step)
    exact names.still rfl rfl rfl rfl rfl
  | approve id decidedBy now stamp =>
    have taken : ((os.approve id decidedBy now stamp).1,
        Reply.decided (os.approve id decidedBy now stamp).2) = (next, reply) := Option.some.inj step
    obtain ⟨rfl, rfl⟩ := Prod.mk.inj taken
    obtain ⟨orchestrator, guard⟩ := recordDecision_keeps os _ _
    exact names.still (congrArg _ orchestrator) guard rfl rfl rfl
  | reject id decidedBy note now stamp =>
    have taken : ((os.reject id decidedBy note now stamp).1,
        Reply.decided (os.reject id decidedBy note now stamp).2) = (next, reply) :=
      Option.some.inj step
    obtain ⟨rfl, rfl⟩ := Prod.mk.inj taken
    obtain ⟨orchestrator, guard⟩ := recordDecision_keeps os _ _
    exact names.still (congrArg _ orchestrator) guard rfl rfl rfl
  | checkRateLimit key now =>
    unfold Step at step
    dsimp only [perform, BusinessOS.checkRateLimit] at step
    cases checked : os.guard.check key none now now with
    | error panic =>
      rw [checked] at step
      cases step
    | ok answer =>
      rw [checked] at step
      obtain ⟨rfl, rfl⟩ := Prod.mk.inj (Option.some.inj step)
      obtain ⟨limited, limiter, outcome⟩ := RateLimit.GuardRuns.check_cases checked
      have breakers : answer.1.circuitBreakers = os.guard.circuitBreakers := by
        rcases outcome with ⟨_, _, _, same⟩ | ⟨_, _, same, _⟩ | ⟨_, _, _, _, _, named, _⟩
        · exact same
        · exact same
        · cases named
      refine ⟨fun kind => ?_, fun other => ?_, fun name => ?_⟩
      · rw [mem_snoc, ← names.agents kind]
        exact ⟨.inr, fun either => either.elim (fun none_ => by cases none_) id⟩
      · rw [mem_snoc, ← names.buckets other]
        show other ∈ answer.1.rateLimiter.buckets ↔ some key = some other ∨ _
        rw [check_keys limiter, Option.some.injEq, eq_comm]
      · rw [mem_snoc, ← names.circuits name]
        show name ∈ answer.1.circuitBreakers ↔ _
        rw [breakers]
        exact ⟨.inr, fun either => either.elim (fun none_ => by cases none_) id⟩

end Names

/-- As many different names as a table has keys. -/
theorem length_dedup {α : Type*} [DecidableEq α] {keys names : List α} (distinct : keys.Nodup)
    (same : ∀ a, a ∈ keys ↔ a ∈ names) : keys.length = names.dedup.length := by
  have perm : keys.Perm names.dedup := by
    rw [List.perm_ext_iff_of_nodup distinct (List.nodup_dedup names)]
    intro a
    rw [List.mem_dedup, same]
  exact perm.length_eq

theorem run_books {es fs : List (Event ω)} {os next : BusinessOS ω} (run : Run Step os fs next)
    (accounts : Accounts es os) (names : Names es os) :
    Accounts (es ++ fs) next ∧ Names (es ++ fs) next := by
  induction run generalizing es with
  | nil os =>
    rw [List.append_nil]
    exact ⟨accounts, names⟩
  | @cons os mid next e fs first _ ih =>
    have change := step_change accounts.opened first
    rw [List.append_cons]
    exact ih (accounts.change change) (names.step first)

/-- In every run of façade calls the health check and the statistics are the books of the calls. -/
theorem books_balance {config : BusinessOSConfig} {es : List (Event ω)} {os : BusinessOS ω}
    (run : Run Step (.new config) es os) : Books es os := by
  have start : Accounts ([] : List (Event ω)) (.new config) := by
    refine ⟨?_, rfl, rfl, rfl, rfl, ?_⟩
    · intro a member
      cases member
    · intro a member
      cases member
  have unnamed : Names ([] : List (Event ω)) (.new config) := by
    refine ⟨fun kind => ?_, fun key => ?_, fun name => ?_⟩
    · exact iff_of_false Bool.false_ne_true List.not_mem_nil
    · exact iff_of_false (AList.notMem_empty key) List.not_mem_nil
    · exact iff_of_false (AList.notMem_empty name) List.not_mem_nil
  obtain ⟨accounts, names⟩ := run_books run start unnamed
  rw [List.nil_append] at accounts names
  have decided : os.approvals.decided.length =
      es.countP (decides .approved) + es.countP (decides .rejected) := by
    rw [← accounts.approved, ← accounts.rejected,
      List.length_eq_countP_add_countP fun a : HumanApproval => a.status == .approved]
    congr 1
    apply List.countP_congr
    intro a member
    rcases accounts.told a member with status | status <;> rw [status] <;> decide
  refine ⟨?_, ?_, ?_, ?_, ?_, accounts.all, ?_, ?_⟩
  · show os.audit.entries.length = _
    rw [accounts.log, decided, Nat.add_assoc]
  · show os.approvals.pending.length + _ + _ = _
    rw [← accounts.all, decided, Nat.add_assoc]
  · show registryLen os.orchestrator.registry = _
    rw [registryLen, List.countP_eq_length_filter]
    refine length_dedup ((by decide : kinds.Nodup).filter _) fun kind => ?_
    rw [List.mem_filter, ← names.agents kind]
    exact and_iff_right (by cases kind <;> decide)
  · rw [← length_dedup os.guard.rateLimiter.buckets.keys_nodup names.buckets]
    exact (List.length_map Sigma.fst).symm
  · rw [← length_dedup os.guard.circuitBreakers.keys_nodup names.circuits]
    exact (List.length_map Sigma.fst).symm
  · show (os.approvals.decided.filter _).length = _
    rw [← List.countP_eq_length_filter, accounts.approved]
  · show (os.approvals.decided.filter _).length = _
    rw [← List.countP_eq_length_filter, accounts.rejected]

def sampleRequest : HumanApproval := .new "apr_a" "wf-1" "Refund" "money" .null 1

/-- A request that is approved, a circuit that is registered twice, and one limited key. -/
def sampleEvents : List (Event Unit) :=
  [⟨.requestApproval "wf-1" "Refund" "money" .null "a" 1 ⟨"e1", 1⟩, .requested sampleRequest⟩,
    ⟨.approve "apr_a" "alice" 2 ⟨"e2", 2⟩,
      .decided (.ok (Decision.record ⟨"apr_a", .approved, "alice", none, 2⟩ sampleRequest))⟩,
    ⟨.registerCircuit "db" 5 60, .done⟩, ⟨.registerCircuit "db" 7 60, .done⟩,
    ⟨.checkRateLimit "k" 3, .checked (.ok ())⟩]

theorem books_balance_sample : ∃ os, Run Step (.new .default) sampleEvents os ∧
    (healthCheck os).auditEntries = 2 ∧ (healthCheck os).pendingApprovals = 0 ∧
      (healthCheck os).circuitBreakers = 1 := by
  have run : Run Step (.new .default) sampleEvents _ :=
    .cons rfl (.cons rfl (.cons rfl (.cons rfl (.single rfl))))
  have books := books_balance run
  refine ⟨_, run, books.log, ?_, books.circuits⟩
  have pending := books.pending
  have asked : sampleEvents.countP asks = 1 := by decide
  have approved : sampleEvents.countP (decides .approved) = 1 := by decide
  omega

end BusinessOs.Core.FacadeHealth
