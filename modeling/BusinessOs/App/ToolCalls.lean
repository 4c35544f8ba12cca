/- Source: app/agents/base.py, app/models.py (AgentTask)
   digest: Calls of one tool from several sessions: the breaker's check, the task's row, the tool
     itself and the records, interleaved between their commits, with calls that stop halfway. -/

import BusinessOs.App.BreakerRuns
import BusinessOs.Lib.Json.Access
import BusinessOs.Lib.KeyedCalls

set_option autoImplicit false
set_option relaxedAutoImplicit false

namespace BusinessOs.App.ToolCalls

open BusinessOs.Lib BusinessOs.Lib.Execution BusinessOs.Lib.Interleaving BusinessOs.Lib.Json.Tree
open BusinessOs.Lib.KeyedCalls (Discipline Kept)
open BusinessOs.App.Models

inductive TaskStatus
  | queued | running | completed | failed | escalated
  deriving DecidableEq, Repr

structure AgentTask where
  id : String
  workflowId : String
  agentName : String
  toolName : String
  status : TaskStatus
  input : Value
  output : Value
  error : Option String
  startedAt : Option ℤ
  completedAt : Option ℤ
  deriving DecidableEq

/-- What a tool may return: a `dict`, a dataclass as its `dict`, or anything else. -/
inductive RawResult
  | dict (members : List (String × Value))
  | record (members : List (String × Value))
  | other (value : Value)
  deriving DecidableEq

def normalizeResult : RawResult → Value
  | .record members | .dict members => .object members
  | .other value => .object [("value", value)]

/-- What a tool does: it returns, or it (or the normalization of its result) raises an exception
with a text. -/
abbrev Outcome := Except String RawResult

/-- The arguments of `execute_tool` apart from the tool, the generated id and the clock. -/
structure Call where
  id : String
  workflowId : String
  agentName : String
  input : Value
  startedAt : ℤ
  deriving DecidableEq

section Records

variable (toolName : String) (c : Call)

def Call.row : AgentTask where
  id := c.id
  workflowId := c.workflowId
  agentName := c.agentName
  toolName
  status := .running
  input := c.input
  output := .object []
  error := none
  startedAt := some c.startedAt
  completedAt := none

/-- What the outcome writes into a task. -/
def settle (outcome : Outcome) (completedAt : ℤ) (task : AgentTask) : AgentTask :=
  match outcome with
  | .ok raw =>
    { task with
      status := .completed
      output := normalizeResult raw
      completedAt := some completedAt }
  | .error exc =>
    { task with status := .failed, error := some exc, completedAt := some completedAt }

def Call.startedRecord : AuditLog where
  workflowId := some c.workflowId
  action := .taskStarted
  actor := "system"
  message := c.agentName ++ "." ++ toolName ++ " started"
  metadata := .object [("task_id", .string c.id)]

def Call.settledRecord (outcome : Outcome) : AuditLog :=
  match outcome with
  | .ok raw =>
    { workflowId := some c.workflowId
      action := .taskCompleted
      actor := "system"
      message := c.agentName ++ "." ++ toolName ++ " completed"
      metadata := .object [("task_id", .string c.id),
        ("simulated", ((normalizeResult raw).get "simulated").getD (.bool false))] }
  | .error exc =>
    { workflowId := some c.workflowId
      action := .taskFailed
      actor := "system"
      message := c.agentName ++ "." ++ toolName ++ " failed: " ++ exc
      metadata := .object [("task_id", .string c.id)] }

end Records

/-- Where a session stands in `execute_tool`. -/
inductive Stage
  /-- Inside the breaker's check, or between two calls. -/
  | checking (check : BreakerRuns.Phase)
  /-- The check has returned. -/
  | admitted
  /-- The running task is committed. -/
  | inserted (c : Call)
  /-- Its record is, too. -/
  | recorded (c : Call)
  /-- The tool has returned or raised. -/
  | answered (c : Call) (outcome : Outcome)
  /-- The outcome is committed. -/
  | settled (c : Call) (outcome : Outcome) (completedAt : ℤ)
  deriving DecidableEq

/-- A session, or what is left of one whose process died or whose commit raised. Inside the `try`,
too: after a commit that raised the transaction is to be rolled back first, so that the handler's
commit raises in its turn. -/
inductive Phase
  | live (stage : Stage)
  | stopped (stage : Stage)
  deriving DecidableEq

/-- The breaker's rows with its own records, the tasks with theirs, and in `ran` what the tool has
done, which no table holds. -/
structure Store where
  breaker : BreakerRuns.Shared
  tasks : List AgentTask
  taskRecords : List AuditLog
  ran : List (String × Outcome)
  deriving DecidableEq

abbrev World (P : Type) := Interleaving.World P Store Phase

inductive Event (P : Type)
  | check (e : BreakerRuns.Event P)
  | insert (p : P) (c : Call)
  | recordStart (p : P)
  /-- `func()`. -/
  | run (p : P) (outcome : Outcome)
  | settle (p : P) (completedAt : ℤ)
  | recordEnd (p : P)
  | stop (p : P)
  deriving DecidableEq

def party {P : Type} : BreakerRuns.Event P → P
  | .read p _ | .insert p | .refuse p | .allow p | .reject p | .record p => p

/-- The breaker's part of a session. -/
def Phase.check : Phase → BreakerRuns.Phase
  | .live (.checking check) | .stopped (.checking check) => check
  | _ => .idle

/-- The breaker's part of the world. -/
def checks {P : Type} (s : World P) : BreakerRuns.World P where
  db := s.db.breaker
  phase p := (s.phase p).check

section Step

variable {P : Type} [DecidableEq P] (toolName : String) (limitPerMinute : ℤ)

def step (s : World P) : Event P → Option (World P)
  | .check e =>
    match s.phase (party e) with
    | .live (.checking _) =>
      (BreakerRuns.step toolName limitPerMinute (checks s) e).map fun next =>
        s.move (party e) { s.db with breaker := next.db }
          (.live (if e = .allow (party e) then .admitted else .checking (next.phase (party e))))
    | _ => none
  | .insert p c =>
    match s.phase p with
    | .live .admitted =>
      if c.id ∈ s.db.tasks.map AgentTask.id then none
      else some (s.move p { s.db with tasks := s.db.tasks ++ [c.row toolName] }
        (.live (.inserted c)))
    | _ => none
  | .recordStart p =>
    match s.phase p with
    | .live (.inserted c) =>
      some (s.move p { s.db with taskRecords := s.db.taskRecords ++ [c.startedRecord toolName] }
        (.live (.recorded c)))
    | _ => none
  | .run p outcome =>
    match s.phase p with
    | .live (.recorded c) =>
      some (s.move p { s.db with ran := s.db.ran ++ [(c.id, outcome)] }
        (.live (.answered c outcome)))
    | _ => none
  | .settle p completedAt =>
    match s.phase p with
    | .live (.answered c outcome) =>
      some (s.move p
        { s.db with
          tasks := Table.update AgentTask.id s.db.tasks c.id (settle outcome completedAt) }
        (.live (.settled c outcome completedAt)))
    | _ => none
  | .recordEnd p =>
    match s.phase p with
    | .live (.settled c outcome _) =>
      some (s.move p
        { s.db with taskRecords := s.db.taskRecords ++ [c.settledRecord toolName outcome] }
        (.live (.checking .idle)))
    | _ => none
  | .stop p =>
    match s.phase p with
    | .live stage => some (s.move p s.db (.stopped stage))
    | .stopped _ => none

end Step

/-- What the breaker sees of a step. -/
def Event.check? {P : Type} : Event P → Option (BreakerRuns.Event P)
  | .check e => some e
  | _ => none

/-- A check that returns commits over the row that it read. -/
def Undisturbed {P : Type} (toolName : String) (s : World P) : Event P → Prop
  | .check e => BreakerRuns.Undisturbed toolName (checks s) e
  | _ => True

/-- Behind its check, and not yet at the tool. -/
def Phase.waits : Phase → Bool
  | .live .admitted | .live (.inserted _) | .live (.recorded _) => true
  | _ => false

/-- Before any task, record and call. -/
structure Initial {P : Type} (s : World P) : Prop where
  idle : ∀ p, s.phase p = .live (.checking .idle)
  tasks : s.db.tasks = []
  taskRecords : s.db.taskRecords = []
  ran : s.db.ran = []

def Stage.call : Stage → Option Call
  | .checking _ | .admitted => none
  | .inserted c | .recorded c | .answered c _ | .settled c _ _ => some c

def Phase.call : Phase → Option Call
  | .live stage | .stopped stage => stage.call

/-- A record of one task. -/
def names (id : String) (entry : AuditLog) : Bool :=
  entry.metadata.get "task_id" == some (.string id)

/-- What there is of one task: its row, its records, and what the tool has done for it. -/
structure Account where
  row : Option AgentTask
  records : List AuditLog
  ran : List (String × Outcome)

def account (db : Store) (id : String) : Account where
  row := Table.get AgentTask.id db.tasks id
  records := db.taskRecords.filter (names id)
  ran := db.ran.filter fun r => r.1 == id

section Laws

variable (toolName : String)

def Stage.account : Stage → Account
  | .checking _ | .admitted => ⟨none, [], []⟩
  | .inserted c => ⟨some (c.row toolName), [], []⟩
  | .recorded c => ⟨some (c.row toolName), [c.startedRecord toolName], []⟩
  | .answered c outcome =>
    ⟨some (c.row toolName), [c.startedRecord toolName], [(c.id, outcome)]⟩
  | .settled c outcome completedAt =>
    ⟨some (settle outcome completedAt (c.row toolName)), [c.startedRecord toolName],
      [(c.id, outcome)]⟩

/-- What a call leaves that is over. -/
def Call.account (c : Call) (outcome : Outcome) (completedAt : ℤ) : Account where
  row := some (settle outcome completedAt (c.row toolName))
  records := [c.startedRecord toolName, c.settledRecord toolName outcome]
  ran := [(c.id, outcome)]

def Complete (id : String) (a : Account) : Prop :=
  a = ⟨none, [], []⟩ ∨
    ∃ c outcome completedAt, Call.id c = id ∧ a = c.account toolName outcome completedAt

def discipline : Discipline Store Phase String Account where
  view := account
  key phase := phase.call.map Call.id
  expects
    | .live stage | .stopped stage => stage.account toolName
  complete := Complete toolName

structure Inv {P : Type} (s : World P) : Prop where
  keys : (s.db.tasks.map AgentTask.id).Nodup
  kept : Kept (discipline toolName) s

end Laws

section Steps

variable {P : Type} [DecidableEq P] {toolName : String} {limitPerMinute : ℤ} {s t : World P}
  {e : Event P} {db : Store} {c : Call}

theorem names_started {id : String} : names id (c.startedRecord toolName) = (c.id == id) := by
  by_cases same : c.id = id <;> simp [names, Call.startedRecord, Value.get, same]

theorem names_settled {id : String} {outcome : Outcome} :
    names id (c.settledRecord toolName outcome) = (c.id == id) := by
  cases outcome <;> by_cases same : c.id = id <;>
    simp [names, Call.settledRecord, Value.get, same]

theorem settle_id (outcome : Outcome) (completedAt : ℤ) (task : AgentTask) :
    (settle outcome completedAt task).id = task.id := by
  cases outcome <;> rfl

theorem account_insert {id : String} :
    account { db with tasks := db.tasks ++ [c.row toolName] } id =
      { account db id with
        row := (account db id).row.or (if c.id = id then some (c.row toolName) else none) } := by
  unfold account
  rw [Table.get_append]
  rfl

theorem account_record {entry : AuditLog} {id : String} :
    account { db with taskRecords := db.taskRecords ++ [entry] } id =
      { account db id with
        records := (account db id).records ++ if names id entry then [entry] else [] } := by
  unfold account
  rw [List.filter_append, List.filter_singleton]
  cases names id entry <;> rfl

theorem account_run {outcome : Outcome} {id : String} :
    account { db with ran := db.ran ++ [(c.id, outcome)] } id =
      { account db id with
        ran := (account db id).ran ++ if c.id = id then [(c.id, outcome)] else [] } := by
  unfold account
  rw [List.filter_append, List.filter_singleton]
  by_cases same : c.id = id
  · simp [same]
  · have other : (c.id == id) = false := beq_false_of_ne same
    simp [same, other]

theorem account_settle {outcome : Outcome} {completedAt : ℤ} {id : String} :
    account { db with
      tasks := Table.update AgentTask.id db.tasks c.id (settle outcome completedAt) } id =
      { account db id with
        row := if id = c.id then (account db id).row.map (settle outcome completedAt)
          else (account db id).row } := by
  unfold account
  by_cases same : id = c.id
  · rw [if_pos same, same, Table.get_update_self (settle_id outcome completedAt)]
  · rw [if_neg same, Table.get_update_of_ne (settle_id outcome completedAt) same]

omit [DecidableEq P] in
/-- What the tables hold of the task of a session's call. -/
theorem Inv.found {p : P} {stage : Stage} (inv : Inv toolName s) (at_ : s.phase p = .live stage)
    (under : stage.call = some c) :
    (discipline toolName).key (s.phase p) = some c.id ∧
      account s.db c.id = stage.account toolName := by
  have held : (discipline toolName).key (s.phase p) = some c.id := by
    show (s.phase p).call.map Call.id = _
    rw [at_]
    show stage.call.map Call.id = _
    rw [under]
    rfl
  have law := inv.kept.laws p c.id held
  rw [at_] at law
  exact ⟨held, law⟩

/-- A call's next commit, with what it adds to its own account. -/
theorem inv_advance {p : P} {stage next : Stage} (inv : Inv toolName s)
    (at_ : s.phase p = .live stage) (under : stage.call = some c) (still : next.call = some c)
    (keys : (db.tasks.map AgentTask.id).Nodup)
    (others : ∀ id, id ≠ c.id → account db id = account s.db id)
    (here : account db c.id = next.account toolName) :
    Inv toolName (s.move p db (.live next)) := by
  refine ⟨keys, inv.kept.advance (inv.found at_ under).1 ?_ here others⟩
  show next.call.map Call.id = _
  rw [still]
  rfl

/-- A call that has a task has its row. -/
theorem stage_row {stage : Stage} (under : stage.call = some c) :
    (stage.account toolName).row ≠ none := by
  cases stage with
  | checking _ => cases under
  | admitted => cases under
  | _ => exact Option.some_ne_none _

/-- Nobody knows of a task that is not there. -/
theorem inv_insert {p : P} (inv : Inv toolName s) (at_ : s.phase p = .live .admitted)
    (fresh : c.id ∉ s.db.tasks.map AgentTask.id) :
    Inv toolName (s.move p { s.db with tasks := s.db.tasks ++ [c.row toolName] }
      (.live (.inserted c))) := by
  have absent : (account s.db c.id).row = none := Table.get_eq_none.mpr fresh
  have unheld : ∀ q, (discipline toolName).key (s.phase q) ≠ some c.id := by
    intro q held
    have law : account s.db c.id = _ := inv.kept.laws q c.id held
    have busy : (s.phase q).call.map Call.id = some c.id := held
    rw [law] at absent
    obtain ⟨own, called, same⟩ := Option.map_eq_some_iff.mp busy
    cases phase : s.phase q with
    | live stage =>
      rw [phase] at called absent
      exact stage_row called absent
    | stopped stage =>
      rw [phase] at called absent
      exact stage_row called absent
  have empty : account s.db c.id = ⟨none, [], []⟩ := by
    rcases inv.kept.complete unheld with empty | ⟨_, _, _, _, there⟩
    · exact empty
    · have there : account s.db c.id = _ := there
      rw [there] at absent
      cases absent
  refine ⟨Table.nodup_append inv.keys fresh, ?_⟩
  refine inv.kept.begin (k := c.id) (by rw [at_]; rfl) unheld rfl ?_ ?_
  · refine account_insert.trans ?_
    rw [if_pos rfl, empty]
    rfl
  · intro id other
    refine account_insert.trans ?_
    rw [if_neg (Ne.symm other), Option.or_none]
    rfl

theorem inv_step (inv : Inv toolName s) (taken : step toolName limitPerMinute s e = some t) :
    Inv toolName t := by
  cases e with
  | check e =>
    simp only [step] at taken
    split at taken
    · rename_i check at_
      obtain ⟨next, _, rfl⟩ := Option.map_eq_some_iff.mp taken
      refine ⟨inv.keys, inv.kept.relabel ?_ ?_ fun _ => rfl⟩
      · rw [at_]
        split_ifs <;> rfl
      · rw [at_]
        split_ifs <;> rfl
    · cases taken
  | insert p c =>
    simp only [step] at taken
    split at taken
    · rename_i at_
      split at taken
      · cases taken
      · rename_i fresh
        obtain rfl := Option.some.inj taken
        exact inv_insert inv at_ fresh
    · cases taken
  | recordStart p =>
    simp only [step] at taken
    split at taken
    · rename_i c at_
      obtain rfl := Option.some.inj taken
      refine inv_advance inv at_ rfl rfl inv.keys ?_ ?_
      · intro id other
        refine account_record.trans ?_
        rw [names_started, beq_false_of_ne (Ne.symm other)]
        simp
      · refine account_record.trans ?_
        rw [(inv.found at_ rfl).2, names_started, beq_self_eq_true]
        rfl
    · cases taken
  | run p outcome =>
    simp only [step] at taken
    split at taken
    · rename_i c at_
      obtain rfl := Option.some.inj taken
      refine inv_advance inv at_ rfl rfl inv.keys ?_ ?_
      · intro id other
        refine account_run.trans ?_
        rw [if_neg (Ne.symm other), List.append_nil]
      · refine account_run.trans ?_
        rw [(inv.found at_ rfl).2, if_pos rfl]
        rfl
    · cases taken
  | settle p completedAt =>
    simp only [step] at taken
    split at taken
    · rename_i c outcome at_
      obtain rfl := Option.some.inj taken
      refine inv_advance inv at_ rfl rfl ?_ ?_ ?_
      · rw [Table.keys_update (settle_id outcome completedAt)]
        exact inv.keys
      · intro id other
        refine account_settle.trans ?_
        rw [if_neg other]
      · refine account_settle.trans ?_
        rw [(inv.found at_ rfl).2, if_pos rfl]
        rfl
    · cases taken
  | recordEnd p =>
    simp only [step] at taken
    split at taken
    · rename_i c outcome completedAt at_
      obtain rfl := Option.some.inj taken
      obtain ⟨held, found⟩ := inv.found at_ rfl
      refine ⟨inv.keys, inv.kept.finish held rfl (.inr ⟨c, outcome, completedAt, rfl, ?_⟩) ?_⟩
      · refine account_record.trans ?_
        rw [found, names_settled, beq_self_eq_true]
        rfl
      · intro id other
        refine account_record.trans ?_
        rw [names_settled, beq_false_of_ne (Ne.symm other)]
        simp [discipline]
    · cases taken
  | stop p =>
    simp only [step] at taken
    split at taken
    · rename_i stage at_
      obtain rfl := Option.some.inj taken
      exact ⟨inv.keys, inv.kept.relabel (by rw [at_]; rfl) (by rw [at_]; rfl) fun _ => rfl⟩
    · cases taken

end Steps

/-- What a task's row says about the tool's call. -/
def Tells (ran : List (String × Outcome)) (task : AgentTask) : Prop :=
  task.status = .running ∨
    (task.status = .completed ∧ task.error = none ∧
      ∃ raw, (task.id, .ok raw) ∈ ran ∧ task.output = normalizeResult raw) ∨
    (task.status = .failed ∧ ∃ exc, (task.id, .error exc) ∈ ran ∧ task.error = some exc)

section Tasks

variable {P : Type} [DecidableEq P] {toolName : String} {limitPerMinute : ℤ} {s t : World P}
  {id : String}

theorem inv_reachable (reach : Reachable Initial (ofPartial (step toolName limitPerMinute)) s) :
    Inv toolName s := by
  obtain ⟨start, es, initial, run⟩ := reach
  refine run.invariant (fun _ _ _ inv taken => inv_step inv taken) ?_
  refine ⟨by rw [initial.tasks]; exact List.nodup_nil, Kept.initial ?_ ?_⟩
  · intro p
    rw [initial.idle p]
    rfl
  · intro id
    left
    show account start.db id = _
    unfold account
    rw [initial.tasks, initial.taskRecords, initial.ran]
    rfl

/-- What the tables hold of a task that is under way, stopped or over. -/
inductive Explained (toolName : String) (s : World P) (id : String) : Account → Prop
  | none : Explained toolName s id ⟨none, [], []⟩
  | under {p : P} {stage : Stage} {c : Call} (at_ : (s.phase p).call = some c)
      (call : stage.call = some c) (own : c.id = id) :
      Explained toolName s id (stage.account toolName)
  | ended {c : Call} (own : c.id = id) (outcome : Outcome) (completedAt : ℤ) :
      Explained toolName s id (c.account toolName outcome completedAt)

omit [DecidableEq P] in
theorem Inv.explained (inv : Inv toolName s) (id : String) :
    Explained toolName s id (account s.db id) := by
  rcases inv.kept.done id with ⟨p, held⟩ | empty | ⟨c, outcome, completedAt, own, there⟩
  · have law : account s.db id = _ := inv.kept.laws p id held
    obtain ⟨c, called, own⟩ := Option.map_eq_some_iff.mp held
    rw [law]
    cases phase : s.phase p with
    | live stage => exact .under called (by rw [phase] at called; exact called) own
    | stopped stage => exact .under called (by rw [phase] at called; exact called) own
  · have empty : account s.db id = _ := empty
    rw [empty]
    exact .none
  · have there : account s.db id = _ := there
    rw [there]
    exact .ended own outcome completedAt

/-- The facts that an account shows of its task. -/
structure Shows (s : World P) (id : String) (a : Account) : Prop where
  ids : ∀ task ∈ a.row, task.id = id
  once : a.ran.length ≤ 1
  behind : ∀ r ∈ a.ran, a.row ≠ none ∧ ∃ entry ∈ a.records, entry.action = .taskStarted
  tells : ∀ task ∈ a.row, Tells a.ran task
  running : ∀ task ∈ a.row, task.status = .running → ∃ p c, (s.phase p).call = some c ∧ c.id = id
  records : ∀ task ∈ a.row, ∀ entry ∈ a.records,
    (entry.action = .taskCompleted → task.status = .completed) ∧
      (entry.action = .taskFailed → task.status = .failed)

/-- A task whose outcome is committed. -/
theorem settle_tells (toolName : String) (c : Call) (outcome : Outcome) (completedAt : ℤ) :
    Tells [(c.id, outcome)] (settle outcome completedAt (c.row toolName)) ∧
      (settle outcome completedAt (c.row toolName)).status ≠ .running := by
  cases outcome with
  | ok raw => exact ⟨.inr (.inl ⟨rfl, rfl, raw, List.mem_singleton_self _, rfl⟩), by simp [settle]⟩
  | error exc => exact ⟨.inr (.inr ⟨rfl, exc, List.mem_singleton_self _, rfl⟩), by simp [settle]⟩

theorem settle_records (toolName : String) (c : Call) (outcome : Outcome) (completedAt : ℤ) :
    ∀ entry ∈ [c.startedRecord toolName, c.settledRecord toolName outcome],
      (entry.action = .taskCompleted →
        (settle outcome completedAt (c.row toolName)).status = .completed) ∧
      (entry.action = .taskFailed →
        (settle outcome completedAt (c.row toolName)).status = .failed) := by
  cases outcome <;> simp [Call.startedRecord, Call.settledRecord, settle]

omit [DecidableEq P] in
theorem Explained.shows {a : Account} (explained : Explained toolName s id a) : Shows s id a := by
  cases explained with
  | none => refine ⟨?_, ?_, ?_, ?_, ?_, ?_⟩ <;> simp
  | @under p stage c at_ call own =>
    subst own
    cases stage with
    | checking _ => cases call
    | admitted => cases call
    | inserted own =>
      obtain rfl := Option.some.inj call
      refine ⟨?_, ?_, ?_, ?_, ?_, ?_⟩
      · exact fun task member => (Option.some.inj member) ▸ rfl
      · exact Nat.zero_le 1
      · simp [Stage.account]
      · exact fun task member => .inl ((Option.some.inj member) ▸ rfl)
      · exact fun _ _ _ => ⟨p, own, at_, rfl⟩
      · simp [Stage.account]
    | recorded own =>
      obtain rfl := Option.some.inj call
      refine ⟨?_, ?_, ?_, ?_, ?_, ?_⟩
      · exact fun task member => (Option.some.inj member) ▸ rfl
      · exact Nat.zero_le 1
      · simp [Stage.account]
      · exact fun task member => .inl ((Option.some.inj member) ▸ rfl)
      · exact fun _ _ _ => ⟨p, own, at_, rfl⟩
      · simp [Stage.account, Call.startedRecord]
    | answered own outcome =>
      obtain rfl := Option.some.inj call
      refine ⟨?_, ?_, ?_, ?_, ?_, ?_⟩
      · exact fun task member => (Option.some.inj member) ▸ rfl
      · exact le_rfl
      · simp [Stage.account, Call.startedRecord]
      · exact fun task member => .inl ((Option.some.inj member) ▸ rfl)
      · exact fun _ _ _ => ⟨p, own, at_, rfl⟩
      · simp [Stage.account, Call.startedRecord]
    | settled own outcome completedAt =>
      obtain rfl := Option.some.inj call
      obtain ⟨tells, ended⟩ := settle_tells toolName own outcome completedAt
      have records := settle_records toolName own outcome completedAt
      refine ⟨?_, ?_, ?_, ?_, ?_, ?_⟩
      · exact fun task member => (Option.some.inj member) ▸ settle_id outcome completedAt _
      · exact le_rfl
      · simp [Stage.account, Call.startedRecord]
      · exact fun task member => (Option.some.inj member) ▸ tells
      · exact fun task member running => absurd ((Option.some.inj member) ▸ running) ended
      · intro task member entry listed
        obtain rfl := Option.some.inj member
        exact records entry (List.mem_cons.mpr (.inl (List.mem_singleton.mp listed)))
  | @ended c own outcome completedAt =>
    subst own
    obtain ⟨tells, ended⟩ := settle_tells toolName c outcome completedAt
    have records := settle_records toolName c outcome completedAt
    refine ⟨?_, ?_, ?_, ?_, ?_, ?_⟩
    · exact fun task member => (Option.some.inj member) ▸ settle_id outcome completedAt _
    · exact le_rfl
    · simp [Call.account, Call.startedRecord]
    · exact fun task member => (Option.some.inj member) ▸ tells
    · exact fun task member running => absurd ((Option.some.inj member) ▸ running) ended
    · intro task member entry listed
      obtain rfl := Option.some.inj member
      exact records entry listed

/-- The rows whose outcome is committed stay. -/
theorem step_settled {e : Event P} (inv : Inv toolName s)
    (taken : step toolName limitPerMinute s e = some t) {task : AgentTask}
    (member : task ∈ s.db.tasks) (ended : task.status ≠ .running) : task ∈ t.db.tasks := by
  cases e with
  | check e =>
    simp only [step] at taken
    split at taken
    · obtain ⟨next, _, rfl⟩ := Option.map_eq_some_iff.mp taken
      exact member
    · cases taken
  | insert p c =>
    simp only [step] at taken
    split at taken
    · split at taken
      · cases taken
      · obtain rfl := Option.some.inj taken
        exact List.mem_append_left _ member
    · cases taken
  | settle p completedAt =>
    simp only [step] at taken
    split at taken
    · rename_i c outcome at_
      obtain rfl := Option.some.inj taken
      have row : Table.get AgentTask.id s.db.tasks c.id = some (c.row toolName) :=
        congrArg Account.row (inv.found at_ rfl).2
      -- The call's own row is still running, so the settled one has another id.
      refine List.mem_map.mpr ⟨task, member, if_neg ?_⟩
      intro same
      have own := Table.get_of_mem inv.keys member
      rw [same, row] at own
      obtain rfl := Option.some.inj own
      exact ended rfl
    · cases taken
  | recordStart p | run p outcome | recordEnd p | stop p =>
    simp only [step] at taken
    split at taken
    · obtain rfl := Option.some.inj taken
      exact member
    · cases taken

/-- However the calls of a tool interleave and stop: the tool runs at most once for a task, and only
behind the commits of its row and of its record; a row that is completed or failed says what the
tool did, stays, and its records agree with it; and a row is left running only by a call that is
under way or was stopped. -/
theorem tasks_tell (reach : Reachable Initial (ofPartial (step toolName limitPerMinute)) s) :
    (s.db.ran.map Prod.fst).Nodup ∧
    (∀ r ∈ s.db.ran, ∃ task ∈ s.db.tasks, task.id = r.1 ∧
      ∃ entry ∈ s.db.taskRecords, names r.1 entry = true ∧ entry.action = .taskStarted) ∧
    (∀ task ∈ s.db.tasks, Tells s.db.ran task) ∧
    (∀ task ∈ s.db.tasks, task.status = .running →
      ∃ p c, (s.phase p).call = some c ∧ c.id = task.id) ∧
    (∀ task ∈ s.db.tasks, ∀ entry ∈ s.db.taskRecords, names task.id entry = true →
      (entry.action = .taskCompleted → task.status = .completed) ∧
        (entry.action = .taskFailed → task.status = .failed)) ∧
    ∀ (es : List (Event P)) (t : World P),
      Run (ofPartial (step toolName limitPerMinute)) s es t →
        ∀ task ∈ s.db.tasks, task.status ≠ .running → task ∈ t.db.tasks := by
  have inv := inv_reachable reach
  have shows : ∀ id, Shows s id (account s.db id) := fun id => (inv.explained id).shows
  have stored : ∀ task ∈ s.db.tasks, task ∈ (account s.db task.id).row := fun task member =>
    Table.get_of_mem inv.keys member
  have within : ∀ id, ∀ r ∈ (account s.db id).ran, r ∈ s.db.ran := fun id r member =>
    (List.mem_filter.mp member).1
  refine ⟨?_, ?_, ?_, ?_, ?_, ?_⟩
  · rw [List.nodup_iff_count_le_one]
    intro id
    rw [List.count, List.countP_map, List.countP_eq_length_filter]
    exact (shows id).once
  · intro r member
    have own : r ∈ (account s.db r.1).ran :=
      List.mem_filter.mpr ⟨member, beq_self_eq_true _⟩
    obtain ⟨there, entry, listed, started⟩ := (shows r.1).behind r own
    obtain ⟨task, found⟩ := Option.ne_none_iff_exists'.mp there
    obtain ⟨inside, named⟩ := List.mem_filter.mp listed
    exact ⟨task, (Table.get_mem found).1, (Table.get_mem found).2, entry, inside, named, started⟩
  · intro task member
    rcases (shows task.id).tells task (stored task member) with running | done | failed
    · exact .inl running
    · obtain ⟨status, error, raw, listed, output⟩ := done
      exact .inr (.inl ⟨status, error, raw, within _ _ listed, output⟩)
    · obtain ⟨status, exc, listed, error⟩ := failed
      exact .inr (.inr ⟨status, exc, within _ _ listed, error⟩)
  · exact fun task member => (shows task.id).running task (stored task member)
  · intro task member entry listed named
    exact (shows task.id).records task (stored task member) entry
      (List.mem_filter.mpr ⟨listed, named⟩)
  · intro es t run task member ended
    have kept : Inv toolName t ∧ task ∈ t.db.tasks := by
      refine run.invariant (I := fun s => Inv toolName s ∧ task ∈ s.db.tasks) ?_ ⟨inv, member⟩
      intro a e b both taken
      exact ⟨inv_step both.1 taken, step_settled both.1 taken both.2 ended⟩
    exact kept.2

end Tasks

/-! The breaker's part of a run, and how often the tool runs behind it. -/

section Window

variable {P : Type} [DecidableEq P] {toolName : String} {limitPerMinute : ℤ} {s t : World P}
  {e : Event P}

/-- Steps in which no check that returns was overtaken since it read the row. -/
abbrev Serial (toolName : String) (limitPerMinute : ℤ) : World P → Event P → World P → Prop :=
  Guarded (Undisturbed toolName) (ofPartial (step toolName limitPerMinute))

/-- Steps of `R` inside one window of the breaker. -/
def InWindow (toolName : String) (R : World P → Event P → World P → Prop) :
    World P → Event P → World P → Prop :=
  fun s e t => R s e t ∧ BreakerRuns.KeepsWindow toolName (checks s) (checks t)

/-- A check moves its own session, and one that returns is over. -/
theorem check_moves {s t : BreakerRuns.World P} {e : BreakerRuns.Event P}
    (taken : BreakerRuns.step toolName limitPerMinute s e = some t) :
    t = s.move (party e) t.db (t.phase (party e)) ∧
      (e = .allow (party e) → t.phase (party e) = .idle) := by
  have moved : ∃ db phase, t = s.move (party e) db phase ∧
      (e = .allow (party e) → phase = .idle) := by
    cases e with
    | read p now | insert p | refuse p | allow p | reject p | record p =>
      simp only [BreakerRuns.step] at taken
      repeat' split at taken
      all_goals first
        | cases taken; done
        | exact ⟨_, _, (Option.some.inj taken).symm, by simp [party]⟩
  obtain ⟨db, phase, rfl, idle⟩ := moved
  rw [move_self]
  exact ⟨rfl, idle⟩

theorem checks_move {p : P} {db : Store} {phase : Phase} :
    checks (s.move p db phase) = (checks s).move p db.breaker phase.check := by
  have phases : (checks (s.move p db phase)).phase =
      ((checks s).move p db.breaker phase.check).phase := by
    funext q
    show ((s.move p db phase).phase q).check = _
    by_cases own : q = p
    · rw [own, move_self, move_self]
    · rw [move_of_ne own, move_of_ne own]
      rfl
  exact congrArg (Interleaving.World.mk db.breaker) phases

/-- A session whose part of the breaker stays leaves what the breaker sees. -/
theorem checks_still {p : P} {db : Store} {phase : Phase} (same : db.breaker = s.db.breaker)
    (still : phase.check = (s.phase p).check) : checks (s.move p db phase) = checks s := by
  rw [checks_move, same, still]
  exact congrArg (Interleaving.World.mk s.db.breaker) (Function.update_eq_self p _)

theorem step_check {e : BreakerRuns.Event P}
    (taken : step toolName limitPerMinute s (.check e) = some t) :
    BreakerRuns.step toolName limitPerMinute (checks s) e = some (checks t) := by
  simp only [step] at taken
  split at taken
  · obtain ⟨next, stepped, rfl⟩ := Option.map_eq_some_iff.mp taken
    obtain ⟨moved, idle⟩ := check_moves stepped
    rw [stepped, checks_move]
    refine congrArg some (moved.trans (congrArg ((checks s).move (party e) next.db) ?_))
    split_ifs with returned
    · exact idle returned
    · rfl
  · cases taken

/-- No other step touches the breaker. -/
theorem step_other (other : e.check? = none)
    (taken : step toolName limitPerMinute s e = some t) : checks t = checks s := by
  cases e with
  | check e => cases other
  | insert p c =>
    simp only [step] at taken
    split at taken
    · rename_i at_
      split at taken
      · cases taken
      · obtain rfl := Option.some.inj taken
        exact checks_still rfl (by rw [at_]; rfl)
    · cases taken
  | stop p =>
    simp only [step] at taken
    split at taken
    · rename_i stage at_
      obtain rfl := Option.some.inj taken
      exact checks_still rfl (by rw [at_]; cases stage <;> rfl)
    · cases taken
  | recordStart p | run p outcome | settle p completedAt | recordEnd p =>
    simp only [step] at taken
    split at taken
    · rename_i at_
      obtain rfl := Option.some.inj taken
      exact checks_still rfl (by rw [at_]; rfl)
    · cases taken

/-- A step as the breaker sees it. -/
theorem step_seen {R : BreakerRuns.World P → BreakerRuns.Event P → BreakerRuns.World P → Prop}
    (taken : step toolName limitPerMinute s e = some t)
    (each : ∀ check, e = .check check →
      BreakerRuns.step toolName limitPerMinute (checks s) check = some (checks t) →
      R (checks s) check (checks t)) :
    Run R (checks s) e.check?.toList (checks t) := by
  cases seen : e.check? with
  | none =>
    rw [step_other seen taken]
    exact .nil _
  | some check =>
    cases e with
    | check e =>
      obtain rfl := Option.some.inj seen
      exact .single (each e rfl (step_check taken))
    | _ => cases seen

theorem serial_seen (first : Serial toolName limitPerMinute s e t) :
    Run (BreakerRuns.Serial toolName limitPerMinute) (checks s) e.check?.toList (checks t) := by
  refine step_seen first.2 ?_
  rintro check rfl checked
  exact ⟨first.1, checked⟩

theorem window_seen (first : InWindow toolName (Serial toolName limitPerMinute) s e t) :
    Run (BreakerRuns.InWindow toolName (BreakerRuns.Serial toolName limitPerMinute)) (checks s)
      e.check?.toList (checks t) := by
  refine step_seen first.1.2 ?_
  rintro check rfl checked
  exact ⟨⟨first.1.1, checked⟩, first.2⟩

/-- `waiting` has every party that is behind its check and not yet at the tool. -/
def Covers (waiting : List P) (s : World P) : Prop :=
  ∀ p, (s.phase p).waits = true → p ∈ waiting

theorem covers_move {waiting waiting' : List P} {p : P} {db : Store} {phase : Phase}
    (covers : Covers waiting s) (here : phase.waits = true → p ∈ waiting')
    (others : ∀ q, q ≠ p → q ∈ waiting → q ∈ waiting') : Covers waiting' (s.move p db phase) := by
  intro q waits
  by_cases own : q = p
  · rw [own, move_self] at waits
    rw [own]
    exact here waits
  · rw [move_of_ne own] at waits
    exact others q own (covers q waits)

/-- A check that returns adds a party, and a run of the tool takes its own away. -/
theorem step_waits {waiting : List P} (covers : Covers waiting s)
    (taken : step toolName limitPerMinute s e = some t) :
    ∃ waiting', Covers waiting' t ∧ t.db.ran.length + waiting'.length ≤
      s.db.ran.length + waiting.length + BreakerRuns.returns e.check?.toList := by
  cases e with
  | check e =>
    simp only [step] at taken
    split at taken
    · obtain ⟨next, _, rfl⟩ := Option.map_eq_some_iff.mp taken
      by_cases returned : e = .allow (party e)
      · refine ⟨party e :: waiting, covers_move covers (fun _ => List.mem_cons_self)
          fun q _ inside => List.mem_cons_of_mem _ inside, ?_⟩
        have one : BreakerRuns.returns (Event.check e).check?.toList = 1 := by
          show BreakerRuns.returns [e] = 1
          rw [returned]
          rfl
        rw [one, List.length_cons]
        exact le_of_eq (Nat.add_assoc _ _ _).symm
      · refine ⟨waiting, covers_move covers ?_ fun _ _ inside => inside, Nat.le_add_right _ _⟩
        rw [if_neg returned]
        exact fun waits => absurd waits Bool.false_ne_true
    · cases taken
  | insert p c =>
    simp only [step] at taken
    split at taken
    · rename_i at_
      split at taken
      · cases taken
      · obtain rfl := Option.some.inj taken
        refine ⟨waiting, covers_move covers (fun _ => covers p ?_) fun _ _ inside => inside, le_rfl⟩
        rw [at_]
        rfl
    · cases taken
  | recordStart p =>
    simp only [step] at taken
    split at taken
    · rename_i at_
      obtain rfl := Option.some.inj taken
      refine ⟨waiting, covers_move covers (fun _ => covers p ?_) fun _ _ inside => inside, le_rfl⟩
      rw [at_]
      rfl
    · cases taken
  | run p outcome =>
    simp only [step] at taken
    split at taken
    · rename_i c at_
      obtain rfl := Option.some.inj taken
      have inside : p ∈ waiting := covers p (by rw [at_]; rfl)
      have positive := List.length_pos_of_mem inside
      refine ⟨waiting.erase p, covers_move covers (fun waits => absurd waits Bool.false_ne_true)
        fun q other there => (List.mem_erase_of_ne other).mpr there, ?_⟩
      show (s.db.ran ++ [(c.id, outcome)]).length + (waiting.erase p).length ≤ _
      rw [List.length_append, List.length_singleton, List.length_erase_of_mem inside]
      omega
    · cases taken
  | settle p completedAt | recordEnd p | stop p =>
    simp only [step] at taken
    split at taken
    · obtain rfl := Option.some.inj taken
      refine ⟨waiting, covers_move covers (fun waits => absurd waits Bool.false_ne_true)
        fun _ _ inside => inside, le_rfl⟩
    · cases taken

theorem run_waits {waiting : List P} {es : List (Event P)} (covers : Covers waiting s)
    (run : Run (ofPartial (step toolName limitPerMinute)) s es t) :
    ∃ waiting', Covers waiting' t ∧ t.db.ran.length + waiting'.length ≤
      s.db.ran.length + waiting.length + BreakerRuns.returns (es.filterMap Event.check?) := by
  induction run generalizing waiting with
  | nil s => exact ⟨waiting, covers, le_rfl⟩
  | @cons s t z e es first _ ih =>
    obtain ⟨next, covered, here⟩ := step_waits covers first
    obtain ⟨last, held, rest⟩ := ih covered
    have split : BreakerRuns.returns ((e :: es).filterMap Event.check?) =
        BreakerRuns.returns e.check?.toList + BreakerRuns.returns (es.filterMap Event.check?) := by
      cases seen : e.check? with
      | none =>
        rw [List.filterMap_cons_none seen]
        exact (Nat.zero_add _).symm
      | some check =>
        rw [List.filterMap_cons_some seen, BreakerRuns.returns_cons]
        rfl
    refine ⟨last, held, ?_⟩
    omega

/-- Without checks the window stays. -/
theorem quiet_run {es : List (Event P)} (quiet : ∀ e ∈ es, e.check? = none)
    (run : Run (ofPartial (step toolName limitPerMinute)) s es t) :
    Run (InWindow toolName (Serial toolName limitPerMinute)) s es t := by
  induction run with
  | nil s => exact .nil s
  | @cons s t z e es first _ ih =>
    have silent := quiet e List.mem_cons_self
    refine .cons ⟨⟨?_, first⟩, ?_⟩ (ih fun e later => quiet e (List.mem_cons_of_mem _ later))
    · cases e with
      | check e => cases silent
      | _ => trivial
    · rw [step_other silent first]
      intro row stored next again
      rw [Option.mem_unique stored again]

/-- The checks of a window, with the one that may have opened it. -/
theorem window_returns {limitPerMinute : ℕ} {es : List (Event P)} {z : World P}
    (sound : BreakerRuns.Sound toolName (checks s)) (first : Serial toolName limitPerMinute s e t)
    (window : Run (InWindow toolName (Serial toolName limitPerMinute)) t es z) :
    BreakerRuns.returns e.check?.toList + BreakerRuns.returns (es.filterMap Event.check?) ≤
      limitPerMinute := by
  have rest := window.filterMap (f := checks) fun _ _ _ => window_seen
  have empty : BreakerRuns.Tally toolName limitPerMinute 0 (checks s) :=
    ⟨Int.natCast_nonneg _, fun row stored => (sound.stored row stored).2, fun _ => rfl⟩
  cases seen : e.check? with
  | none =>
    rw [step_other seen first.2] at rest
    have last := empty.run rest sound
    exact Int.ofNat_le.mp last.within
  | some check =>
    have opening := serial_seen first
    rw [seen] at opening
    have opened := Run.single_iff.mp opening
    have cause := BreakerRuns.step_cause opened.2
    have last := (empty.step sound cause opened.1 (.inl rfl)).run rest (sound.step cause)
    rw [Nat.zero_add] at last
    exact Int.ofNat_le.mp last.within

/-- In one window of the breaker the tool runs no more often than the limit allows, apart from the
calls that were behind their checks when the window began. -/
theorem tool_runs_bounded (toolName : String) (limitPerMinute : ℕ) {s₀ s₁ s₂ s₃ : World P}
    {before between : List (Event P)} {first : Event P} {waiting : List P}
    (start : BreakerRuns.Initial toolName (checks s₀))
    (reach : Run (Serial toolName limitPerMinute) s₀ before s₁) (covers : Covers waiting s₁)
    (reset : Serial toolName limitPerMinute s₁ first s₂)
    (window : Run (InWindow toolName (Serial toolName limitPerMinute)) s₂ between s₃) :
    s₃.db.ran.length ≤ s₁.db.ran.length + waiting.length + limitPerMinute := by
  have sound := start.sound.run (reach.filterMap (f := checks) fun _ _ _ => serial_seen)
  have returned := window_returns sound reset window
  obtain ⟨next, covered, here⟩ := step_waits covers reset.2
  obtain ⟨last, _, rest⟩ := run_waits covered (window.mono fun _ _ _ taken => taken.1.2)
  omega

end Window

section Sample

def sampleStart : World Bool where
  db := ⟨⟨⟨[], []⟩, 0⟩, [], [], []⟩
  phase _ := .live (.checking .idle)

theorem sampleStart_initial : Initial sampleStart := ⟨fun _ => rfl, rfl, rfl, rfl⟩

def sampleCall (id : String) : Call where
  id
  workflowId := "w"
  agentName := "outreach"
  input := .object []
  startedAt := 0

/-- One session's call goes through, and the other's stops behind a tool that has raised. -/
def sampleEvents : List (Event Bool) :=
  [.check (.read true 0), .check (.insert true), .check (.allow true),
    .insert true (sampleCall "x"),
    .recordStart true, .check (.read false 1), .check (.allow false), .run true (.ok (.dict [])),
    .settle true 2, .insert false (sampleCall "y"), .recordEnd true, .recordStart false,
    .run false (.error "timeout"), .stop false]

def sampleAfter (limitPerMinute : ℤ) (es : List (Event Bool)) : World Bool :=
  (es.foldlM (step "gmail" limitPerMinute) sampleStart).getD sampleStart

theorem tasks_tell_sample : ∃ s, Run (ofPartial (step "gmail" 2)) sampleStart sampleEvents s ∧
    ∃ task ∈ s.db.tasks, task.status = .running ∧ ∃ p c, (s.phase p).call = some c ∧
      c.id = task.id := by
  have runs : (sampleEvents.foldlM (step "gmail" 2) sampleStart).map (fun s => s.db.tasks) =
      some [settle (.ok (.dict [])) 2 ((sampleCall "x").row "gmail"),
        (sampleCall "y").row "gmail"] := rfl
  obtain ⟨s, last, tasks⟩ := Option.map_eq_some_iff.mp runs
  have run := Run.of_foldlM last
  have left := (tasks_tell ⟨sampleStart, sampleEvents, sampleStart_initial, run⟩).2.2.2.1
  have member : (sampleCall "y").row "gmail" ∈ s.db.tasks := by
    rw [tasks]
    exact List.mem_cons_of_mem _ List.mem_cons_self
  exact ⟨s, run, _, member, rfl, left _ member rfl⟩

/-- One session is behind its check when a minute later the other one's check opens a window. -/
def sampleBefore : List (Event Bool) :=
  [.check (.read true 0), .check (.insert true), .check (.allow true),
    .check (.read false (Chrono.minutes 1))]

def sampleBetween : List (Event Bool) :=
  [.insert true (sampleCall "x"), .recordStart true, .run true (.ok (.dict [])),
    .insert false (sampleCall "y"), .recordStart false, .run false (.error "timeout")]

def sampleWindow (n : ℕ) : World Bool :=
  sampleAfter 1 (sampleBefore ++ .check (.allow false) :: sampleBetween.take n)

theorem sampleBefore_run : Run (Serial "gmail" (1 : ℕ)) sampleStart sampleBefore
    (sampleAfter 1 sampleBefore) := by
  have read : Serial "gmail" (1 : ℕ) sampleStart (.check (.read true 0))
      (sampleAfter 1 (sampleBefore.take 1)) := ⟨trivial, rfl⟩
  have insert : Serial "gmail" (1 : ℕ) (sampleAfter 1 (sampleBefore.take 1))
      (.check (.insert true)) (sampleAfter 1 (sampleBefore.take 2)) := ⟨trivial, rfl⟩
  have allow : Serial "gmail" (1 : ℕ) (sampleAfter 1 (sampleBefore.take 2))
      (.check (.allow true)) (sampleAfter 1 (sampleBefore.take 3)) :=
    ⟨show Breakers.Store.breaker _ _ = some _ from rfl, rfl⟩
  have again : Serial "gmail" (1 : ℕ) (sampleAfter 1 (sampleBefore.take 3))
      (.check (.read false (Chrono.minutes 1))) (sampleAfter 1 sampleBefore) := ⟨trivial, rfl⟩
  exact .cons read (.cons insert (.cons allow (.cons again (.nil _))))

theorem sampleBetween_run : Run (InWindow "gmail" (Serial "gmail" (1 : ℕ))) (sampleWindow 0)
    sampleBetween (sampleWindow 6) := by
  refine quiet_run ?_ (Run.of_foldlM rfl)
  simp [sampleBetween, Event.check?]

theorem tool_runs_bounded_sample : (sampleWindow 6).db.ran.length ≤ 0 + 1 + 1 := by
  have covers : Covers [true] (sampleAfter 1 sampleBefore) := by
    intro p waits
    cases p with
    | true => exact List.mem_cons_self
    | false => cases waits
  have reset : Serial "gmail" (1 : ℕ) (sampleAfter 1 sampleBefore) (.check (.allow false))
      (sampleWindow 0) := ⟨show Breakers.Store.breaker _ _ = some _ from rfl, rfl⟩
  exact tool_runs_bounded "gmail" 1 (⟨fun _ => rfl, fun _ stored => by cases stored⟩)
    sampleBefore_run covers
    reset sampleBetween_run

end Sample

end BusinessOs.App.ToolCalls
