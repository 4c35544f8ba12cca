/- Source: app/agents/department.py, app/db.py, rust/src/bridge.rs (department_metrics)
   digest: What one commit of a session writes into the revenue signals of a department. -/

import BusinessOs.App.DepartmentEffects
import BusinessOs.App.LifecycleCommits

set_option autoImplicit false
set_option relaxedAutoImplicit false

namespace BusinessOs.App.RevenueBooks

open BusinessOs.Lib BusinessOs.Lib.Execution BusinessOs.Lib.Interleaving BusinessOs.Lib.UnitOfWork
open BusinessOs.Lib.Json.Tree
open BusinessOs.App.Models BusinessOs.App.Workflows BusinessOs.App.Company
open BusinessOs.App.Sessions BusinessOs.App.Orchestrator BusinessOs.App.DepartmentAgent
open BusinessOs.App.DepartmentEffects BusinessOs.App.Lifecycle BusinessOs.App.LifecycleCommits

/-- What a report makes of the signals; they depend neither on the status nor on the approvals. -/
def raise (departmentType : String) (signals output : Value) : Value :=
  (departmentMetrics departmentType "active" signals output 0).2

def outputOf : Statement → Option Value
  | .department (.lastOutput output) => some output
  | _ => none

/-- The outputs that a part of a program reports together with their signals. -/
def outputsIn (program : List Statement) : List Value :=
  if program.all keepsSignals then [] else program.filterMap outputOf

/-! What the sessions keep of the signals. -/

/-- Copies with the same signals of the same department. -/
structure Same (a b : DepartmentCopy) : Prop where
  id : a.id = b.id
  departmentType : a.departmentType = b.departmentType
  signals : a.revenueSignals = b.revenueSignals

/-- A copy that has no signals to write; `types` are the types of the departments. -/
structure Settled (types : String → Option String) (copy : DepartmentCopy) : Prop where
  signals : copy.revenueSignals.current = copy.revenueSignals.loaded
  departmentType : types copy.id = some copy.departmentType

/-- Neither signals nor an output. -/
def plain (statement : Statement) : Bool := keepsSignals statement && (outputOf statement).isNone

/-- The statements that report an output, for a copy of the department. -/
def reporting (copy : DepartmentCopy) (output : Value) : List Statement :=
  [.department (.lastOutput output), .elsewhere, .department (.revenueSignals
    (raise copy.departmentType copy.revenueSignals.current output))]

/-- A call that has still to report has the signals that it reports from. -/
def Ready (session : Session) (program : List Statement) : Prop :=
  program.all keepsSignals = true ∨ ∃ copy output before after,
    session.department = some copy ∧ program = before ++ reporting copy output ++ after ∧
      before.all plain = true ∧ after.all plain = true

structure Fits (types : String → Option String) (call : Call) : Prop where
  own : ∀ copy ∈ call.session.department,
    call.department = some copy.id ∧ Settled types copy
  gets : ∀ id, .getDepartment id ∈ call.program → call.department = some id
  ready : Ready call.session call.program

/-- The type and the signals of a department's row. -/
def books (db : CompanyDatabase) (id : String) : Option (String × Value) :=
  (db.department id).map fun row => (row.departmentType, row.revenueSignals)

def typesOf (db : CompanyDatabase) (id : String) : Option String := (books db id).map Prod.fst

/-- The books with these outputs reported. -/
def counted (outputs : List Value) (entry : String × Value) : String × Value :=
  (entry.1, outputs.foldl (raise entry.1) entry.2)

section Statements

variable {s : Session} {first rest : List Statement} {copy : DepartmentCopy} {output : Value}

theorem Same.refl (a : DepartmentCopy) : Same a a := ⟨rfl, rfl, rfl⟩

theorem Same.trans {a b c : DepartmentCopy} (left : Same a b) (right : Same b c) : Same a c :=
  ⟨left.id.trans right.id, left.departmentType.trans right.departmentType,
    left.signals.trans right.signals⟩

theorem Settled.same {types : String → Option String} {a b : DepartmentCopy}
    (settled : Settled types a) (same : Same a b) : Settled types b := by
  refine ⟨?_, ?_⟩
  · rw [← same.signals]
    exact settled.signals
  · rw [← same.id, ← same.departmentType]
    exact settled.departmentType

theorem load_settled {db : CompanyDatabase} {id : String} {row : Department}
    (found : db.department id = some row) : Settled (typesOf db) (.load row) := by
  refine ⟨rfl, ?_⟩
  obtain ⟨_, rfl⟩ := Table.get_mem found
  show ((db.department row.id).map _).map _ = _
  rw [found]
  rfl

theorem committed_settled {types : String → Option String}
    (known : types copy.id = some copy.departmentType) : Settled types copy.committed :=
  ⟨rfl, known⟩

/-- A statement that keeps the signals keeps those of the copy. -/
theorem run_same {statement : Statement} (keeps : keepsSignals statement = true)
    (between : statement ≠ .commit) (held : s.department = some copy) :
    ∃ next, (statement.run s).department = some next ∧ Same copy next := by
  cases statement with
  | commit => exact absurd rfl between
  | getDepartment id =>
    refine ⟨copy, ?_, .refl copy⟩
    show s.department.or _ = _
    rw [held, Option.some_or]
  | department change =>
    have changed : ((Statement.department change).run s).department = some (change.apply copy) := by
      show s.department.map _ = _
      rw [held, Option.map_some]
    cases change with
    | revenueSignals signals => cases keeps
    | lastOutput output => exact ⟨_, changed, rfl, rfl, rfl⟩
    | healthScore score => exact ⟨_, changed, rfl, rfl, rfl⟩
  | _ => exact ⟨copy, held, .refl copy⟩

theorem execute_same (keeps : first.all keepsSignals = true) (between : .commit ∉ first)
    (held : s.department = some copy) :
    ∃ next, (execute s first).department = some next ∧ Same copy next := by
  induction first using List.reverseRecOn with
  | nil => exact ⟨copy, held, .refl copy⟩
  | append_singleton first last ih =>
    rw [List.all_append, Bool.and_eq_true] at keeps
    rw [List.mem_append, List.mem_singleton, not_or] at between
    obtain ⟨middle, there, same⟩ := ih keeps.1 between.1
    have last_keeps : keepsSignals last = true := by simpa using keeps.2
    obtain ⟨next, here, then_⟩ := run_same last_keeps (Ne.symm between.2) there
    rw [execute_snoc]
    exact ⟨next, here, same.trans then_⟩

/-- The copy behind statements that keep the signals is the one of before, or a row just read. -/
theorem execute_copy (keeps : first.all keepsSignals = true) (between : .commit ∉ first)
    {next : DepartmentCopy} (member : next ∈ (execute s first).department) :
    (∃ copy ∈ s.department, Same copy next) ∨
      ∃ id row, .getDepartment id ∈ first ∧ s.db.department id = some row ∧
        Same (.load row) next := by
  induction first using List.reverseRecOn generalizing next with
  | nil => exact .inl ⟨next, member, .refl next⟩
  | append_singleton first last ih =>
    rw [List.all_append, Bool.and_eq_true] at keeps
    rw [List.mem_append, List.mem_singleton, not_or] at between
    rw [execute_snoc] at member
    have last_keeps : keepsSignals last = true := by simpa using keeps.2
    cases held : (execute s first).department with
    | some middle =>
      obtain ⟨copy, here, same⟩ := run_same last_keeps (Ne.symm between.2) held
      obtain rfl : copy = next := Option.some.inj (here.symm.trans member)
      rcases ih keeps.1 between.1 held with ⟨old, there, before⟩ | ⟨id, row, got, found, before⟩
      · exact .inl ⟨old, there, before.trans same⟩
      · exact .inr ⟨id, row, List.mem_append_left _ got, found, before.trans same⟩
    | none =>
      cases last with
      | getDepartment id =>
        have loaded : next ∈ (execute s first).department.or
            (((execute s first).db.department id).map DepartmentCopy.load) := member
        rw [held, Option.none_or, execute_db between.1] at loaded
        obtain ⟨row, found, rfl⟩ := Option.map_eq_some_iff.mp loaded
        exact .inr ⟨id, row, List.mem_append_right _ (List.mem_singleton_self _), found, .refl _⟩
      | department change =>
        have changed : next ∈ (execute s first).department.map fun department =>
          change.apply department := member
        rw [held] at changed
        cases changed
      | commit => exact absurd rfl between.2
      | _ =>
        have kept : next ∈ (execute s first).department := member
        rw [held] at kept
        cases kept

theorem plain_keeps (all : first.all plain = true) : first.all keepsSignals = true := by
  rw [List.all_eq_true] at all ⊢
  intro statement member
  exact (Bool.and_eq_true_iff.mp (all statement member)).1

theorem plain_outputs (all : first.all plain = true) : first.filterMap outputOf = [] := by
  rw [List.filterMap_eq_nil_iff]
  intro statement member
  have own := (Bool.and_eq_true_iff.mp (List.all_eq_true.mp all statement member)).2
  exact Option.isNone_iff_eq_none.mp own

theorem outputsIn_keeps (all : first.all keepsSignals = true) : outputsIn first = [] :=
  if_pos all

/-- A part with one report in it reports its output. -/
theorem outputsIn_reporting (before : first.all plain = true) (after : rest.all plain = true) :
    outputsIn (first ++ reporting copy output ++ rest) = [output] := by
  have raises : (first ++ reporting copy output ++ rest).all keepsSignals = false := by
    have own : (reporting copy output).all keepsSignals = false := rfl
    rw [List.all_append, List.all_append, own, Bool.and_false, Bool.false_and]
  rw [outputsIn, raises, List.filterMap_append, List.filterMap_append, plain_outputs before,
    plain_outputs after]
  rfl

/-- Behind a report the copy has the raised signals to write. -/
theorem execute_reporting (output : Value) (before : first.all plain = true)
    (after : rest.all plain = true) (apart : .commit ∉ first ∧ .commit ∉ rest)
    (held : s.department = some copy) :
    ∃ next, (execute s (first ++ reporting copy output ++ rest)).department = some next ∧
      next.id = copy.id ∧ next.departmentType = copy.departmentType ∧
      next.revenueSignals = copy.revenueSignals.set
        (raise copy.departmentType copy.revenueSignals.current output) := by
  obtain ⟨middle, there, same⟩ := execute_same (plain_keeps before) apart.1 held
  rw [execute_append, execute_append]
  have reported : (execute (execute s first) (reporting copy output)).department = some
      { middle with
        lastOutput := middle.lastOutput.set output
        revenueSignals := middle.revenueSignals.set
          (raise copy.departmentType copy.revenueSignals.current output) } := by
    show (((execute s first).department.map _).map _) = _
    rw [there]
    rfl
  obtain ⟨next, here, then_⟩ := execute_same (plain_keeps after) apart.2 reported
  refine ⟨next, here, ?_, ?_, ?_⟩
  · rw [← then_.id, same.id]
  · rw [← then_.departmentType, same.departmentType]
  · rw [← then_.signals, same.signals]

/-- A flush writes the signals of the session's copy into its row, and into no other. -/
theorem flush_books (s : Session) (id : String) : books s.flush id =
    (books s.db id).map fun entry =>
      match s.department with
      | none => entry
      | some copy =>
        if copy.id = id then (entry.1, copy.revenueSignals.flush entry.2) else entry := by
  unfold books
  cases held : s.department with
  | none =>
    have same : s.flush.departments = s.db.departments := by simp [Session.flush, held]
    rw [CompanyDatabase.department, same, Option.map_map]
    rfl
  | some copy =>
    have table : s.flush.departments = Table.update Department.id s.db.departments copy.id
        copy.flush := by simp [Session.flush, held]
    rw [CompanyDatabase.department, table]
    by_cases own : copy.id = id
    · subst own
      rw [Table.get_update_self copy.flush_id, Option.map_map, Option.map_map]
      simp only [if_pos]
      rfl
    · rw [Table.get_update_of_ne copy.flush_id (Ne.symm own), Option.map_map]
      simp only [if_neg own]
      rfl

end Statements

/-! The next commit of a call. -/

section Advance

variable {call : Call} {db : CompanyDatabase} {first rest : List Statement}

theorem advance_books (id : String) : books (call.advance db).session.db id =
    (books db id).map fun entry =>
      match (execute { call.session with db }
        (call.program.takeWhile fun statement => statement != .commit)).department with
      | none => entry
      | some copy =>
        if copy.id = id then (entry.1, copy.revenueSignals.flush entry.2) else entry := by
  rw [advance_session]
  show books (Session.flush _) id = _
  rw [flush_books, execute_db (takeWhile_apart _)]

/-- A part that keeps the signals leaves the books, and the session's copy settled. -/
theorem advance_keeps (call : Call) (own : ∀ copy ∈ call.session.department,
      call.department = some copy.id ∧ Settled (typesOf db) copy)
    (gets : ∀ id, .getDepartment id ∈ call.program → call.department = some id)
    (keeps : (call.program.takeWhile fun statement => statement != .commit).all keepsSignals =
      true) :
    (∀ id, books (call.advance db).session.db id = books db id) ∧
      ∀ copy ∈ (call.advance db).session.department,
        call.department = some copy.id ∧ Settled (typesOf db) copy := by
  have copies : ∀ copy ∈ (execute { call.session with db }
      (call.program.takeWhile fun statement => statement != .commit)).department,
      call.department = some copy.id ∧ Settled (typesOf db) copy := by
    intro next member
    rcases execute_copy keeps (takeWhile_apart _) member with
      ⟨copy, held, same⟩ | ⟨id, row, read, found, same⟩
    · obtain ⟨named, settled⟩ := own copy held
      exact ⟨same.id ▸ named, settled.same same⟩
    · have named := gets id (List.takeWhile_sublist _ |>.subset read)
      obtain ⟨_, rfl⟩ := Table.get_mem found
      exact ⟨named.trans (congrArg some same.id), (load_settled found).same same⟩
  constructor
  · intro id
    rw [advance_books]
    cases held : (execute { call.session with db }
        (call.program.takeWhile fun statement => statement != .commit)).department with
    | none => exact Option.map_id'
    | some copy =>
      have still := (copies copy held).2.signals
      have same : ∀ entry : String × Value,
          (if copy.id = id then (entry.1, copy.revenueSignals.flush entry.2) else entry) =
            entry := by
        intro entry
        rw [flush_of_eq still]
        exact ite_self _
      simp only [same]
      exact Option.map_id'
  · rw [advance_session]
    intro next member
    obtain ⟨copy, held, rfl⟩ := Option.mem_map.mp member
    obtain ⟨named, settled⟩ := copies copy held
    exact ⟨named, committed_settled settled.departmentType⟩

theorem counted_append (outputs others : List Value) (entry : String × Value) :
    counted (outputs ++ others) entry = counted others (counted outputs entry) := by
  unfold counted
  rw [List.foldl_append]

/-- The next commit keeps the signals, and the report comes later if at all, or it is the report. -/
theorem Ready.cut {session : Session} {program : List Statement} (ready : Ready session program) :
    let first := program.takeWhile fun statement => statement != .commit
    let rest := (program.dropWhile fun statement => statement != .commit).drop 1
    (first.all keepsSignals = true ∧ rest.all keepsSignals = true) ∨
      ∃ copy output before after, session.department = some copy ∧
        before.all plain = true ∧ after.all plain = true ∧
        ((first.all keepsSignals = true ∧ rest = before ++ reporting copy output ++ after) ∨
          (first = before ++ reporting copy output ++ after ∧ rest.all keepsSignals = true)) := by
  intro first rest
  rcases ready with keeps | ⟨copy, output, before, after, held, rfl, early, late⟩
  · rw [List.all_eq_true] at keeps
    refine .inl ⟨List.all_eq_true.mpr fun statement member => ?_,
      List.all_eq_true.mpr fun statement member => ?_⟩
    · exact keeps statement ((List.takeWhile_sublist _).subset member)
    · exact keeps statement ((List.dropWhile_sublist _).subset (List.mem_of_mem_drop member))
  · by_cases commits : .commit ∈ before
    · obtain ⟨start, others, rfl, apart⟩ := List.eq_append_cons_of_mem commits
      have split : start ++ .commit :: others ++ reporting copy output ++ after =
          start ++ .commit :: (others ++ reporting copy output ++ after) := by simp
      obtain ⟨taken, dropped⟩ := cut_at (others ++ reporting copy output ++ after) apart
      rw [List.all_append, List.all_cons, Bool.and_eq_true, Bool.and_eq_true] at early
      refine .inr ⟨copy, output, others, after, held, early.2.2, late, .inl ⟨?_, ?_⟩⟩
      · show (List.takeWhile _ _).all keepsSignals = true
        rw [split, taken]
        exact plain_keeps early.1
      · show (List.dropWhile _ _).drop 1 = _
        rw [split, dropped]
    · have others : ∀ statement ∈ before ++ reporting copy output,
          (statement != .commit) = true := by
        intro statement member
        rw [bne_iff_ne]
        rintro rfl
        rcases List.mem_append.mp member with earlier | own
        · exact commits earlier
        · simp [reporting] at own
      have later : (after.takeWhile fun statement => statement != .commit).all plain = true := by
        rw [List.all_eq_true] at late ⊢
        exact fun statement member => late statement ((List.takeWhile_sublist _).subset member)
      refine .inr ⟨copy, output, before, _, held, early, later, .inr ⟨?_, ?_⟩⟩
      · exact List.takeWhile_append_of_pos others
      · show ((List.dropWhile _ _).drop 1).all keepsSignals = true
        rw [List.dropWhile_append_of_pos others, List.all_eq_true]
        intro statement member
        have inside := (List.dropWhile_sublist _).subset (List.mem_of_mem_drop member)
        exact List.all_eq_true.mp (plain_keeps late) statement inside

/-- A session that reports for the department has the signals that the row has by then. -/
def Current (id : String) (db : CompanyDatabase) (call : Call) : Prop :=
  call.department = some id → outputsIn call.segment ≠ [] →
    ∀ copy ∈ call.session.department, ∀ row ∈ db.department id,
      row.revenueSignals = copy.revenueSignals.loaded

theorem segment_keeps (keeps : (call.program.takeWhile fun statement => statement != .commit).all
    keepsSignals = true) : outputsIn call.segment = [] := by
  apply outputsIn_keeps
  rw [Call.segment, List.all_append, keeps]
  rfl

/-- The next commit of a call writes the outputs that it reports into the books. -/
theorem Fits.advance (fits : Fits (typesOf db) call) :
    Fits (typesOf db) (call.advance db) ∧ ∀ id, Current id db call →
      books (call.advance db).session.db id = (books db id).map
        (counted (if call.department = some id then outputsIn call.segment else [])) := by
  have later : ∀ id, .getDepartment id ∈ (call.advance db).program →
      (call.advance db).department = some id := by
    intro id member
    rw [advance_department]
    exact fits.gets id ((List.dropWhile_sublist _).subset (List.mem_of_mem_drop member))
  rcases fits.ready.cut with ⟨keeps, rest⟩ |
    ⟨copy, output, before, after, held, early, late, ⟨keeps, rest⟩ | ⟨first, rest⟩⟩
  · obtain ⟨same, copies⟩ := advance_keeps call fits.own fits.gets keeps
    refine ⟨⟨advance_department call db ▸ copies, later, .inl rest⟩, ?_⟩
    intro id _
    rw [same, segment_keeps keeps, ite_self]
    exact Option.map_id'.symm
  · obtain ⟨same, copies⟩ := advance_keeps call fits.own fits.gets keeps
    obtain ⟨next, here, kept⟩ := execute_same (s := { call.session with db }) keeps
      (takeWhile_apart _) held
    refine ⟨⟨advance_department call db ▸ copies, later, .inr ?_⟩, ?_⟩
    · refine ⟨next.committed, output, before, after, ?_, ?_, early, late⟩
      · rw [advance_session]
        show Option.map _ _ = _
        rw [here]
        rfl
      · rw [show (call.advance db).program = _ from rest]
        have same : reporting next.committed output = reporting copy output := by
          show [_, _, Statement.department (.revenueSignals (raise next.departmentType
            next.revenueSignals.current output))] = _
          rw [← kept.departmentType, ← kept.signals]
          rfl
        rw [same]
    · intro id _
      rw [same, segment_keeps keeps, ite_self]
      exact Option.map_id'.symm
  · obtain ⟨named, settled⟩ := fits.own copy held
    have apart : .commit ∉ before ∧ .commit ∉ after := by
      have none_ := takeWhile_apart call.program
      rw [first, List.mem_append, List.mem_append, not_or, not_or] at none_
      exact ⟨none_.1.1, none_.2⟩
    obtain ⟨next, here, id_, type_, signals⟩ := execute_reporting (s := { call.session with db })
      output early late apart held
    rw [← first] at here
    have segment : outputsIn call.segment = [output] := by
      rw [Call.segment, first, List.append_assoc]
      refine outputsIn_reporting early ?_
      rw [List.all_append, late]
      rfl
    refine ⟨⟨?_, later, .inl rest⟩, ?_⟩
    · intro own member
      rw [advance_session] at member
      obtain ⟨copy', held', rfl⟩ := Option.mem_map.mp member
      obtain rfl : next = copy' := Option.some.inj (here.symm.trans held')
      rw [advance_department]
      refine ⟨named.trans (congrArg some id_.symm), committed_settled ?_⟩
      rw [id_, type_]
      exact settled.departmentType
    · intro id current
      rw [advance_books, here, segment, named]
      apply Option.map_congr
      intro entry member
      by_cases own : copy.id = id
      · subst own
        obtain ⟨row, found, rfl⟩ := Option.mem_map.mp member
        have loaded := current named (by rw [segment]; exact List.cons_ne_nil _ _) copy held row
          found
        have type_eq : copy.departmentType = row.departmentType := by
          have known := settled.departmentType
          rw [typesOf, books, show db.department copy.id = some row from found] at known
          exact (Option.some.inj known).symm
        have fresh : next.revenueSignals.loaded = row.revenueSignals := by
          rw [signals, loaded]
          rfl
        simp only [id_, if_true]
        rw [flush_of_loaded fresh, signals]
        show (_, raise _ _ _) = (_, raise _ _ _)
        rw [settled.signals, ← loaded, type_eq]
      · have other : ¬ some copy.id = some id := fun same => own (Option.some.inj same)
        simp only [id_, if_neg own, if_neg other]
        rfl

end Advance

/-! The statements of a run. -/

section Run

variable {workflowId : String} {plan : Plan} {department : Department}
variable {agents : List AgentInstance} {payload output : Value}

/-- Statements without signals, outputs and departments to get. -/
def mute : Statement → Bool
  | .getDepartment _ => false
  | statement => plain statement

theorem mute_plain {program : List Statement} (all : program.all mute = true) :
    program.all plain = true := by
  rw [List.all_eq_true] at all ⊢
  intro statement member
  have own := all statement member
  cases statement with
  | getDepartment id => cases own
  | _ => exact own

/-- The first commit of a loop, and what stands before it. -/
theorem startAgents_cut (workflowId : String) (department : Department)
    (agents : List AgentInstance) (payload : Value) (str : Value → String) :
    ∃ first : List Statement,
    (startAgents str department agents payload).flatMap (AgentStep.statements workflowId) =
      .getDepartment department.id :: first ++ [.commit] ∧
      first.all mute = true ∧ .commit ∉ first := by
  refine ⟨((.work (.getAgents department.id) rfl :: agents.flatMap fun agent =>
    [.work (.agent agent.id (.status .running)) rfl,
      .work (.agent agent.id
        (.currentTask (some (format str (mode payload) ++ " operating loop")))) rfl]).flatMap
    (AgentStep.statements workflowId)), ?_, ?_, ?_⟩
  · simp [startAgents, AgentStep.statements]
  · simp [AgentStep.statements, mute, plain, keepsSignals, outputOf, List.all_flatMap]
  · simp only [List.mem_flatMap, List.mem_cons, not_exists, not_and]
    rintro step (rfl | ⟨agent, _, rfl | rfl | other⟩)
    · simp [AgentStep.statements]
    · simp [AgentStep.statements]
    · simp [AgentStep.statements]
    · cases other

theorem inspect_mute (workflowId : String) (plan : Plan) :
    ((inspectUntrustedText workflowId plan).flatMap (AgentStep.statements workflowId)).all mute =
      true := by
  cases flags : flagged plan.inspection <;>
    simp [inspectUntrustedText, flags, AgentStep.statements, mute, plain, keepsSignals, outputOf]

theorem propose_mute (proposals : List Proposal) :
    ((propose plan proposals).flatMap (AgentStep.statements workflowId)).all mute = true := by
  rw [List.all_flatMap, List.all_eq_true]
  intro step member
  obtain ⟨⟨proposal, i⟩, _, rfl⟩ := List.mem_map.mp member
  cases gated : (plan.classify i).requiresApproval <;>
    simp [Plan.request, AgentStep.statements, requestExternalAction, askHuman, recordPacket, gated,
      mute, plain, keepsSignals, outputOf]

theorem report_cut (workflowId : String) (department : Department)
    (agents : List AgentInstance) (output : Value) (approvals : ℕ) : ∃ rest : List Statement,
    (report department agents workflowId output approvals).flatMap
      (AgentStep.statements workflowId) = reporting (.load department) output ++ rest ∧
      rest.all mute = true := by
  refine ⟨(report department agents workflowId output approvals).flatMap
    (AgentStep.statements workflowId) |>.drop 3, rfl, ?_⟩
  simp [report, AgentStep.statements, mute, plain, keepsSignals, outputOf, List.all_flatMap]

theorem closing_mute (left : WorkflowCopy) (escalationId : String)
    (outcome : Except String Value) : (closing left escalationId outcome).all mute = true := by
  rw [closing, List.all_append, List.all_flatMap]
  have records : (finishRecords left escalationId outcome).all (fun record =>
      [Statement.add (Orchestrator.row record), .commit].all mute) = true := by
    rw [List.all_eq_true]
    intro record _
    cases record <;> rfl
  rw [records]
  rfl

/-- A run gets one department; it reports, if at all, behind its first commit. -/
structure Shape (workflowId : String) (payload : Value) (db : CompanyDatabase)
    (statements : List Statement) : Prop where
  gets : ∀ id, .getDepartment id ∈ statements → entry payload "department_id" = some (.string id)
  reports : statements.all keepsSignals = true ∨ ∃ department output first before after,
    entry payload "department_id" = some (.string department.id) ∧
      db.department department.id = some department ∧
      statements = .getDepartment department.id :: first ++ .commit ::
        (before ++ reporting (.load department) output ++ after) ∧
      first.all mute = true ∧ .commit ∉ first ∧ before.all mute = true ∧ after.all mute = true

theorem mute_gets {program : List Statement} (all : program.all mute = true) (id : String) :
    .getDepartment id ∉ program := by
  intro member
  have own := List.all_eq_true.mp all _ member
  cases own

theorem mute_take {program : List Statement} (all : program.all mute = true) (k : ℕ) :
    (program.take k).all mute = true := by
  rw [List.all_eq_true] at all ⊢
  exact fun statement member => all statement (List.mem_of_mem_take member)

/-- A part of a shape, and a shape with more behind it. -/
theorem Shape.take (workflowId : String) (output : Value) {db : CompanyDatabase}
    {first before after : List Statement}
    (named : entry payload "department_id" = some (.string department.id))
    (found : db.department department.id = some department)
    (early : first.all mute = true) (apart : .commit ∉ first) (middle : before.all mute = true)
    (late : after.all mute = true) (k : ℕ) :
    Shape workflowId payload db ((.getDepartment department.id :: first ++ .commit ::
      (before ++ reporting (.load department) output ++ after)).take k) := by
  have report_gets : ∀ id, .getDepartment id ∉ reporting (.load department) output := by
    intro id member
    simp [reporting] at member
  constructor
  · intro id member
    have inside := List.mem_of_mem_take member
    simp only [List.cons_append, List.mem_cons, List.mem_append, mute_gets early,
      mute_gets middle, mute_gets late, report_gets, Statement.getDepartment.injEq, or_false,
      reduceCtorEq] at inside
    rw [named, inside]
  · have start : (.getDepartment department.id :: first ++ .commit :: before).all keepsSignals =
        true := by
      rw [List.all_append, List.all_cons, List.all_cons, plain_keeps (mute_plain early),
        plain_keeps (mute_plain middle)]
      rfl
    have split : .getDepartment department.id :: first ++ .commit ::
        (before ++ reporting (.load department) output ++ after) =
        (.getDepartment department.id :: first ++ .commit :: before) ++
          (reporting (.load department) output ++ after) := by simp
    rcases Nat.lt_or_ge k ((.getDepartment department.id :: first ++ .commit :: before).length + 3)
      with short | long
    · left
      rw [split, List.take_append, List.all_append, Bool.and_eq_true]
      constructor
      · rw [List.all_eq_true] at start ⊢
        exact fun statement member => start statement (List.mem_of_mem_take member)
      · have few : ∀ n < 3, ((reporting (.load department) output ++ after).take n).all
            keepsSignals = true := by
          intro n short
          obtain rfl | rfl | rfl : n = 0 ∨ n = 1 ∨ n = 2 := by omega
          · rfl
          · rfl
          · rfl
        exact few _ (by omega)
    · right
      obtain ⟨l, rfl⟩ := Nat.exists_eq_add_of_le long
      refine ⟨department, output, first, before, after.take l, named, found, ?_, early, apart,
        middle, mute_take late l⟩
      rw [split, List.take_append, Nat.add_assoc, Nat.add_sub_cancel_left,
        List.take_of_length_le (by omega)]
      have three : (reporting (.load department) output ++ after).take (3 + l) =
          reporting (.load department) output ++ after.take l := by
        rw [Nat.add_comm]
        rfl
      rw [three]
      simp

theorem loop_shape (str : Value → String) {db : CompanyDatabase}
    (named : entry payload "department_id" = some (.string department.id))
    (found : db.department department.id = some department) :
    Shape workflowId payload db
      ((operatingLoop str department agents workflowId payload plan).statements workflowId) := by
  obtain ⟨first, start, early, apart⟩ := startAgents_cut workflowId department agents
    payload str
  have opening : (startAgents str department agents payload ++
      inspectUntrustedText workflowId plan).flatMap (AgentStep.statements workflowId) =
      .getDepartment department.id :: first ++ .commit ::
        (inspectUntrustedText workflowId plan).flatMap (AgentStep.statements workflowId) := by
    rw [List.flatMap_append, start]
    simp
  unfold operatingLoop
  cases generateDepartmentOutput str department payload plan.inspection with
  | none =>
    have part : ∀ k, Shape workflowId payload db (((startAgents str department agents payload ++
        inspectUntrustedText workflowId plan).flatMap
          (AgentStep.statements workflowId)).take k) := by
      intro k
      have whole := Shape.take workflowId .null named found early apart
        (inspect_mute workflowId plan) (rfl : ([] : List Statement).all mute = true)
        (min k ((startAgents str department agents payload ++
          inspectUntrustedText workflowId plan).flatMap (AgentStep.statements workflowId)).length)
      rw [← List.take_take, List.append_nil, ← List.cons_append, ← List.append_assoc, ← opening,
        List.take_left] at whole
      exact whole
    cases plan.cut with
    | none => exact part _
    | some at_ => exact part _
  | some output =>
    obtain ⟨rest, reports, late⟩ := report_cut workflowId department agents output
      (proposals str department output).length
    obtain ⟨k, same⟩ := interrupt_statements workflowId plan
      (startAgents str department agents payload ++ inspectUntrustedText workflowId plan ++
        propose plan (proposals str department output) ++
        report department agents workflowId output (proposals str department output).length) _
    rw [same, List.flatMap_append, List.flatMap_append, opening, reports]
    have middle : ((inspectUntrustedText workflowId plan).flatMap
        (AgentStep.statements workflowId) ++
        (propose plan (proposals str department output)).flatMap
          (AgentStep.statements workflowId)).all mute = true := by
      rw [List.all_append, inspect_mute, propose_mute]
      rfl
    have whole := Shape.take workflowId output named found early apart
      middle late k
    simpa using whole

theorem run_shape (workflowId : String) (payload : Value) (plan : Plan) (str : Value → String)
    (db : CompanyDatabase) : Shape workflowId payload db
    ((DepartmentAgent.run str workflowId payload plan db).statements workflowId) := by
  have nothing : Shape workflowId payload db [] := by
    refine ⟨?_, .inl rfl⟩
    intro id member
    cases member
  unfold DepartmentAgent.run
  split
  · rename_i id named
    have look : ∀ k, Shape workflowId payload db (([AgentStep.work (.getDepartment id) rfl].flatMap
        (AgentStep.statements workflowId)).take k) := by
      intro k
      constructor
      · intro other member
        have inside := List.mem_of_mem_take member
        obtain rfl : other = id := by simpa [AgentStep.statements] using inside
        exact named
      · rw [List.all_eq_true]
        refine .inl fun statement member => ?_
        have inside := List.mem_of_mem_take member
        obtain rfl : statement = .getDepartment id := by simpa [AgentStep.statements] using inside
        rfl
    split
    · exact look 1
    · rename_i department found
      obtain ⟨_, rfl⟩ := Table.get_mem found
      split
      · obtain ⟨k, same⟩ := interrupt_statements workflowId plan
          [.work (.getDepartment department.id) rfl] _
        rw [same]
        exact look k
      · exact loop_shape str named found
  · exact nothing
  · exact nothing

end Run

/-! The call of an agent. -/

section Start

variable {call : Call} {db : CompanyDatabase}

/-- The copy of a department that an agent finds shows the row that it works from. -/
theorem view_copy {department : Department}
    (found : (call.view db).department department.id = some department) :
    ∃ copy, (Statement.run { call.session with db } (.getDepartment department.id)).department =
        some copy ∧ copy.departmentType = department.departmentType ∧
      copy.revenueSignals.current = department.revenueSignals := by
  unfold Call.view at found
  split at found
  · rename_i none_
    refine ⟨.load department, ?_, rfl, rfl⟩
    show call.session.department.or ((db.department department.id).map DepartmentCopy.load) = _
    rw [none_, found]
    rfl
  · rename_i copy held
    have same : row copy = department := by
      have member : department ∈ [row copy] := (Table.get_mem found).1
      exact (List.mem_singleton.mp member).symm
    refine ⟨copy, ?_, congrArg Department.departmentType same,
      congrArg Department.revenueSignals same⟩
    show call.session.department.or _ = _
    rw [held, Option.some_or]

theorem foreign_mute {workflowId : String} {program : List Statement}
    (own : program.all (foreign workflowId) = true) : program.all mute = true := by
  rw [List.all_eq_true] at own ⊢
  intro statement member
  have foreign := own statement member
  cases statement with
  | getDepartment id => cases foreign
  | department change => cases foreign
  | _ => rfl

/-- The part of an agent's run up to its first commit reports nothing. -/
theorem Fits.start (fits : Fits (typesOf db) call) (str : Value → String) (plan : Plan)
    {other : Behaviour} (own : (other.statements call.session.workflow.id).all
      (foreign call.session.workflow.id) = true) :
    Fits (typesOf db) ((call.start db str plan other).advance db) ∧ ∀ id,
      Current id db (call.start db str plan other) →
        books ((call.start db str plan other).advance db).session.db id = (books db id).map
          (counted (if call.department = some id then
            outputsIn (call.start db str plan other).segment else [])) := by
  by_cases kind : call.session.workflow.kind = "department_operation"
  · obtain ⟨gets, reports⟩ := run_shape call.session.workflow.id call.payload plan str
      (call.view db)
    have program : ∃ closing : List Statement, closing.all mute = true ∧
        (call.start db str plan other).program = (DepartmentAgent.run str call.session.workflow.id
          call.payload plan (call.view db)).statements call.session.workflow.id ++ closing := by
      refine ⟨_, closing_mute (copyAfter call.session.workflow ((DepartmentAgent.run str
        call.session.workflow.id call.payload plan (call.view db)).statements
          call.session.workflow.id)) plan.escalationId (DepartmentAgent.run str
        call.session.workflow.id call.payload plan (call.view db)).outcome, ?_⟩
      simp only [Call.start, if_pos kind]
    obtain ⟨closing, late, program⟩ := program
    have asks : ∀ id, .getDepartment id ∈ (call.start db str plan other).program →
        (call.start db str plan other).department = some id := by
      intro id member
      rw [program] at member
      rcases List.mem_append.mp member with agent | rest
      · show departmentOf call.session.workflow.kind call.payload = _
        rw [departmentOf, if_pos kind, gets id agent]
      · exact absurd rest (mute_gets late id)
    rcases reports with keeps | ⟨department, output, first, before, after, _, found, statements,
      early, apart, middle, behind⟩
    · refine Fits.advance ⟨fits.own, asks, .inl ?_⟩
      rw [program, List.all_append, keeps, plain_keeps (mute_plain late)]
      rfl
    · have split : (call.start db str plan other).program =
          (.getDepartment department.id :: first) ++ .commit ::
            (before ++ reporting (.load department) output ++ (after ++ closing)) := by
        rw [program, statements]
        simp
      have apart_ : .commit ∉ .getDepartment department.id :: first := by
        simpa using apart
      obtain ⟨taken, dropped⟩ := cut_at
        (before ++ reporting (.load department) output ++ (after ++ closing)) apart_
      rw [← split] at taken dropped
      have keeps : ((call.start db str plan other).program.takeWhile
          fun statement => statement != .commit).all keepsSignals = true := by
        rw [taken, List.all_cons, plain_keeps (mute_plain early)]
        rfl
      obtain ⟨same, copies⟩ := advance_keeps (call.start db str plan other) fits.own asks
        keeps
      constructor
      · refine ⟨?_, ?_, .inr ?_⟩
        · intro copy member
          rw [advance_department]
          exact copies copy member
        · intro id member
          rw [advance_department]
          exact asks id ((List.dropWhile_sublist _).subset (List.mem_of_mem_drop member))
        · obtain ⟨copy, held, type_, signals⟩ := view_copy found
          obtain ⟨next, here, kept⟩ := execute_same (plain_keeps (mute_plain early)) apart held
          refine ⟨next.committed, output, before, after ++ closing, ?_, ?_, mute_plain middle, ?_⟩
          · rw [advance_session, taken]
            show Option.map _ _ = _
            have whole : (execute { (call.start db str plan other).session with db }
                (.getDepartment department.id :: first)).department = some next := here
            rw [whole]
            rfl
          · have report : reporting next.committed output =
                reporting (.load department) output := by
              show [_, _, Statement.department (.revenueSignals (raise next.departmentType
                next.revenueSignals.current output))] = _
              rw [← kept.departmentType, ← kept.signals, type_, signals]
              rfl
            rw [report]
            exact dropped
          · rw [List.all_append, mute_plain behind, mute_plain late]
            rfl
      · intro id _
        rw [same, segment_keeps keeps, ite_self]
        exact Option.map_id'.symm
  · have quiet : (call.start db str plan other).program.all mute = true := by
      simp only [Call.start, if_neg kind, List.all_append, foreign_mute own, closing_mute]
      rfl
    refine Fits.advance ⟨fits.own, ?_, .inl (plain_keeps (mute_plain quiet))⟩
    exact fun id member => absurd member (mute_gets quiet id)

end Start

end BusinessOs.App.RevenueBooks
