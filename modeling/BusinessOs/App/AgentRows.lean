/- Source: app/agents/department.py, app/db.py
   digest: The rows of the agents behind the statements of a session. -/

import BusinessOs.App.Sessions

set_option autoImplicit false
set_option relaxedAutoImplicit false

namespace BusinessOs.App.AgentRows

open BusinessOs.Lib BusinessOs.Lib.UnitOfWork
open BusinessOs.App.Company BusinessOs.App.Sessions

/-- An assignment made in the row itself. -/
def written (row : AgentInstance) : AgentChange → AgentInstance
  | .status status => { row with status }
  | .currentTask currentTask => { row with currentTask }
  | .lastOutput lastOutput => { row with lastOutput }

def change? (id : String) : Statement → Option AgentChange
  | .agent own change => if own = id then some change else none
  | _ => none

/-- The assignments of a program to one agent. -/
def changesTo (id : String) (program : List Statement) : List AgentChange :=
  program.filterMap (change? id)

def rowAfter (program : List Statement) (row : AgentInstance) : AgentInstance :=
  (changesTo row.id program).foldl written row

/-- A copy that was read from one row and stands as another. -/
def copyOf (stored current : AgentInstance) : AgentCopy where
  id := stored.id
  status := ⟨stored.status, current.status⟩
  currentTask := ⟨stored.currentTask, current.currentTask⟩
  lastOutput := ⟨stored.lastOutput, current.lastOutput⟩

section Changes

variable {program first rest : List Statement} {row stored current : AgentInstance}
variable {id : String}

theorem mem_changesTo {change : AgentChange} :
    change ∈ changesTo id program ↔ .agent id change ∈ program := by
  rw [changesTo, List.mem_filterMap]
  constructor
  · rintro ⟨statement, member, set⟩
    cases statement with
    | agent own other =>
      by_cases same : own = id
      · rw [change?, if_pos same] at set
        exact same ▸ Option.some.inj set ▸ member
      · rw [change?, if_neg same] at set
        cases set
    | _ => cases set
  · exact fun member => ⟨_, member, if_pos rfl⟩

theorem changesTo_append : changesTo id (first ++ rest) = changesTo id first ++ changesTo id rest :=
  List.filterMap_append

theorem changesTo_isPrefix (part : first <+: program) :
    changesTo id first <+: changesTo id program := part.filterMap _

theorem foldl_written (changes : List AgentChange) (row : AgentInstance) :
    (changes.foldl written row).id = row.id ∧
      (changes.foldl written row).departmentId = row.departmentId := by
  induction changes generalizing row with
  | nil => exact ⟨rfl, rfl⟩
  | cons change changes ih =>
    have one : (written row change).id = row.id ∧
        (written row change).departmentId = row.departmentId := by
      cases change <;> exact ⟨rfl, rfl⟩
    rw [List.foldl_cons, (ih _).1, (ih _).2]
    exact one

@[simp] theorem rowAfter_id : (rowAfter program row).id = row.id := (foldl_written _ row).1

@[simp] theorem rowAfter_departmentId : (rowAfter program row).departmentId = row.departmentId :=
  (foldl_written _ row).2

theorem rowAfter_snoc {last : Statement} :
    rowAfter (program ++ [last]) row =
      ((change? row.id last).toList).foldl written (rowAfter program row) := by
  rw [rowAfter, changesTo_append, List.foldl_append]
  cases none_ : change? row.id last <;> simp [changesTo, none_, rowAfter]

theorem changesTo_other {last : Statement} (silent : change? id last = none) :
    changesTo id (program ++ [last]) = changesTo id program := by
  rw [changesTo_append, changesTo, changesTo, List.filterMap_cons_none silent]
  exact List.append_nil _

theorem rowAfter_other {last : Statement} (silent : change? row.id last = none) :
    rowAfter (program ++ [last]) row = rowAfter program row := by
  rw [rowAfter, changesTo_other silent, rowAfter]

theorem rowAfter_of_nil (untouched : changesTo row.id program = []) :
    rowAfter program row = row := by
  rw [rowAfter, untouched, List.foldl_nil]

/-- A commit leaves the row as the copy stands. -/
theorem copyOf_flush (id : current.id = stored.id)
    (departmentId : current.departmentId = stored.departmentId) :
    (copyOf stored current).flush stored = current := by
  have status : (copyOf stored current).status.flush stored.status = current.status :=
    flush_of_loaded rfl
  have currentTask : (copyOf stored current).currentTask.flush stored.currentTask =
      current.currentTask := flush_of_loaded rfl
  have lastOutput : (copyOf stored current).lastOutput.flush stored.lastOutput =
      current.lastOutput := flush_of_loaded rfl
  obtain ⟨ownId, ownDepartment, _, _, _⟩ := current
  subst id departmentId
  rw [AgentCopy.flush, status, currentTask, lastOutput]

theorem copyOf_apply (change : AgentChange) :
    change.apply (copyOf stored current) = copyOf stored (written current change) := by
  cases change <;> rfl

end Changes

section Flush

variable {copies : List AgentCopy} {row : AgentInstance}

/-- What the copies write into one row. -/
def flushRow (copies : List AgentCopy) (row : AgentInstance) : AgentInstance :=
  copies.foldl (fun row copy => if row.id = copy.id then copy.flush row else row) row

theorem flushAgents_map (copies : List AgentCopy) (rows : List AgentInstance) :
    flushAgents copies rows = rows.map (flushRow copies) := by
  unfold flushAgents
  induction copies generalizing rows with
  | nil => exact (List.map_id rows).symm
  | cons copy copies ih =>
    rw [List.foldl_cons, ih, Table.update, List.map_map]
    rfl

theorem flushRow_of_absent (absent : row.id ∉ copies.map AgentCopy.id) :
    flushRow copies row = row := by
  unfold flushRow
  induction copies with
  | nil => rfl
  | cons copy copies ih =>
    rw [List.map_cons, List.mem_cons, not_or] at absent
    rw [List.foldl_cons, if_neg absent.1]
    exact ih absent.2

/-- A row is written by its own copy and no other one. -/
theorem flushRow_of_mem (distinct : (copies.map AgentCopy.id).Nodup) {copy : AgentCopy}
    (member : copy ∈ copies) (own : row.id = copy.id) : flushRow copies row = copy.flush row := by
  induction copies with
  | nil => cases member
  | cons first copies ih =>
    rw [List.map_cons, List.nodup_cons] at distinct
    rcases List.mem_cons.mp member with rfl | later
    · have absent : (copy.flush row).id ∉ copies.map AgentCopy.id := own ▸ distinct.1
      have rest := flushRow_of_absent absent
      rw [flushRow, List.foldl_cons, if_pos own]
      exact rest
    · have other : row.id ≠ first.id := by
        rintro same
        exact distinct.1 (same ▸ own ▸ List.mem_map_of_mem later)
      rw [flushRow, List.foldl_cons, if_neg other]
      exact ih distinct.2 later

end Flush

section Tracks

variable {rows : List AgentInstance} {program : List Statement} {last : Statement}
variable {s t : Session} {db : CompanyDatabase}

/-- A session behind a program that began on these rows: what is committed of it stands in the
rows, and all of it in the copies. -/
structure Tracks (rows : List AgentInstance) (program : List Statement) (s : Session) : Prop where
  stored : s.db.agentInstances = rows.map (rowAfter (settled program))
  distinct : (s.agents.map AgentCopy.id).Nodup
  copies : ∀ copy ∈ s.agents, ∃ row ∈ rows,
    copy = copyOf (rowAfter (settled program) row) (rowAfter program row)
  others : ∀ row ∈ rows, row.id ∉ s.agents.map AgentCopy.id → changesTo row.id program = []
  loaded : ∀ departmentId, .getAgents departmentId ∈ program → ∀ row ∈ rows,
    row.departmentId = some departmentId → row.id ∈ s.agents.map AgentCopy.id

theorem Tracks.untouched (tracks : Tracks rows program s) {row : AgentInstance}
    (member : row ∈ rows) (absent : row.id ∉ s.agents.map AgentCopy.id) :
    rowAfter program row = row ∧ rowAfter (settled program) row = row := by
  have none_ := tracks.others row member absent
  have settled_ : changesTo row.id (settled program) = [] :=
    List.prefix_nil.mp (none_ ▸ changesTo_isPrefix (settled_isPrefix program))
  exact ⟨rowAfter_of_nil none_, rowAfter_of_nil settled_⟩

/-- Without a new query the agents that were read are still there. -/
theorem Tracks.loaded_snoc (tracks : Tracks rows program s)
    (ids : t.agents.map AgentCopy.id = s.agents.map AgentCopy.id)
    (unread : ∀ departmentId, last ≠ .getAgents departmentId) (departmentId : String)
    (read : .getAgents departmentId ∈ program ++ [last]) :
    ∀ row ∈ rows, row.departmentId = some departmentId → row.id ∈ t.agents.map AgentCopy.id := by
  rw [ids]
  rcases List.mem_append.mp read with earlier | now
  · exact tracks.loaded departmentId earlier
  · exact absurd (List.mem_singleton.mp now).symm (unread departmentId)

/-- A statement that assigns to no agent leaves the rows without a copy as they were. -/
theorem Tracks.others_snoc (tracks : Tracks rows program s)
    (ids : t.agents.map AgentCopy.id = s.agents.map AgentCopy.id)
    (silent : ∀ id, change? id last = none) : ∀ row ∈ rows,
    row.id ∉ t.agents.map AgentCopy.id → changesTo row.id (program ++ [last]) = [] := by
  intro row member absent
  rw [ids] at absent
  rw [changesTo_other (silent _)]
  exact tracks.others row member absent

/-- Statements that neither read, change nor commit an agent. -/
theorem Tracks.keep (tracks : Tracks rows program s) (db : t.db = s.db)
    (agents : t.agents = s.agents) (between : last ≠ .commit)
    (silent : ∀ id, change? id last = none)
    (unread : ∀ departmentId, last ≠ .getAgents departmentId) :
    Tracks rows (program ++ [last]) t := by
  have ids : t.agents.map AgentCopy.id = s.agents.map AgentCopy.id := by rw [agents]
  refine ⟨?_, ids ▸ tracks.distinct, ?_, tracks.others_snoc ids silent,
    tracks.loaded_snoc ids unread⟩
  · rw [settled_snoc between, db]
    exact tracks.stored
  · intro copy member
    rw [agents] at member
    obtain ⟨row, inside, same⟩ := tracks.copies copy member
    exact ⟨row, inside, by rw [settled_snoc between, rowAfter_other (silent _), same]⟩

/-- A query copies the rows that the session has no copy of. -/
theorem Tracks.getAgents (tracks : Tracks rows program s) (keys : (rows.map AgentInstance.id).Nodup)
    (departmentId : String) :
    Tracks rows (program ++ [.getAgents departmentId])
      ((Statement.getAgents departmentId).run s) := by
  have between : Statement.getAgents departmentId ≠ .commit := by simp
  have ids : s.db.agentInstances.map AgentInstance.id = rows.map AgentInstance.id := by
    rw [tracks.stored, List.map_map]
    exact List.map_congr_left fun row _ => rowAfter_id
  set absent := (s.db.agentsOf departmentId).filter fun row =>
    s.agents.all fun agent => agent.id != row.id with absent_
  have mem_absent : ∀ row, row ∈ absent ↔ (row ∈ s.db.agentInstances ∧
      row.departmentId = some departmentId) ∧ row.id ∉ s.agents.map AgentCopy.id := by
    intro row
    have unheld : (s.agents.all fun agent => agent.id != row.id) = true ↔
        row.id ∉ s.agents.map AgentCopy.id := by simp
    rw [absent_, List.mem_filter, unheld, CompanyDatabase.agentsOf, List.mem_filter, beq_iff_eq]
  have agents : ((Statement.getAgents departmentId).run s).agents =
    s.agents ++ absent.map AgentCopy.load := rfl
  have newIds : (absent.map AgentCopy.load).map AgentCopy.id = absent.map AgentInstance.id := by
    rw [List.map_map]
    rfl
  refine ⟨?_, ?_, ?_, ?_, ?_⟩
  · rw [settled_snoc between]
    exact tracks.stored
  · rw [agents, List.map_append, newIds]
    refine List.Nodup.append tracks.distinct ?_ ?_
    · have part : absent.Sublist s.db.agentInstances :=
        List.filter_sublist.trans List.filter_sublist
      exact (ids ▸ keys).sublist (part.map _)
    · intro id held new
      obtain ⟨row, member, rfl⟩ := List.mem_map.mp new
      exact ((mem_absent row).mp member).2 held
  · intro copy member
    rw [settled_snoc between]
    rw [agents] at member
    rcases List.mem_append.mp member with held | new
    · obtain ⟨row, inside, same⟩ := tracks.copies copy held
      exact ⟨row, inside, by rw [rowAfter_other rfl, same]⟩
    · obtain ⟨found, read, rfl⟩ := List.mem_map.mp new
      obtain ⟨⟨present, _⟩, unheld⟩ := (mem_absent found).mp read
      rw [tracks.stored] at present
      obtain ⟨row, inside, rfl⟩ := List.mem_map.mp present
      rw [rowAfter_id] at unheld
      obtain ⟨same, stored⟩ := tracks.untouched inside unheld
      exact ⟨row, inside, by rw [rowAfter_other rfl, same, stored]; rfl⟩
  · intro row member unheld
    rw [agents, List.map_append, List.mem_append, not_or] at unheld
    rw [changesTo_other rfl]
    exact tracks.others row member unheld.1
  · intro other read row member own
    rw [agents, List.map_append, newIds, List.mem_append]
    rcases List.mem_append.mp read with earlier | now
    · exact .inl (tracks.loaded other earlier row member own)
    · obtain rfl : other = departmentId := by simpa using now
      by_cases held : row.id ∈ s.agents.map AgentCopy.id
      · exact .inl held
      · refine .inr (List.mem_map.mpr ⟨row, (mem_absent row).mpr ⟨⟨?_, own⟩, held⟩, rfl⟩)
        rw [tracks.stored]
        exact List.mem_map.mpr ⟨row, member, (tracks.untouched member held).2⟩

/-- An assignment to a row that the session has a copy of. -/
theorem Tracks.agent (tracks : Tracks rows program s) {id : String} (change : AgentChange)
    (held : id ∈ s.agents.map AgentCopy.id) :
    Tracks rows (program ++ [.agent id change]) ((Statement.agent id change).run s) := by
  have between : Statement.agent id change ≠ .commit := by simp
  have agents : ((Statement.agent id change).run s).agents =
    s.agents.map fun agent => if agent.id = id then change.apply agent else agent := rfl
  have ids : ((Statement.agent id change).run s).agents.map AgentCopy.id =
      s.agents.map AgentCopy.id := by
    rw [agents, List.map_map]
    refine List.map_congr_left fun agent _ => ?_
    by_cases own : agent.id = id
    · cases change <;> simp [own, AgentChange.apply]
    · simp [own]
  refine ⟨?_, ids ▸ tracks.distinct, ?_, ?_, tracks.loaded_snoc ids (by simp)⟩
  · rw [settled_snoc between]
    exact tracks.stored
  · intro copy member
    rw [settled_snoc between]
    rw [agents] at member
    obtain ⟨old, was, rfl⟩ := List.mem_map.mp member
    obtain ⟨row, inside, same⟩ := tracks.copies old was
    have names : old.id = row.id := by rw [same, copyOf, rowAfter_id]
    refine ⟨row, inside, ?_⟩
    by_cases own : row.id = id
    · rw [if_pos (names.trans own), same, copyOf_apply, rowAfter_snoc, change?, if_pos own.symm]
      rfl
    · have silent : change? row.id (.agent id change) = none := if_neg fun same => own same.symm
      rw [if_neg (names ▸ own), same, rowAfter_other silent]
  · intro row member absent
    rw [ids] at absent
    have other : id ≠ row.id := fun same => absent (same ▸ held)
    have silent : change? row.id (.agent id change) = none := if_neg other
    rw [changesTo_other silent]
    exact tracks.others row member absent

/-- A commit writes each row as its copy stands, and leaves the other rows. -/
theorem Tracks.commit (tracks : Tracks rows program s)
    (keys : (rows.map AgentInstance.id).Nodup) :
    Tracks rows (program ++ [.commit]) s.commit := by
  have after : ∀ row, rowAfter (program ++ [.commit]) row = rowAfter program row :=
    fun row => rowAfter_other rfl
  have agents : s.commit.agents = s.agents.map AgentCopy.committed := rfl
  have ids : s.commit.agents.map AgentCopy.id = s.agents.map AgentCopy.id := by
    rw [agents, List.map_map]
    rfl
  have written : ∀ row ∈ rows,
      flushRow s.agents (rowAfter (settled program) row) = rowAfter program row := by
    intro row member
    by_cases held : row.id ∈ s.agents.map AgentCopy.id
    · obtain ⟨copy, present, own⟩ := List.mem_map.mp held
      obtain ⟨other, inside, same⟩ := tracks.copies copy present
      have names : other.id = row.id := by rw [← own, same, copyOf, rowAfter_id]
      obtain rfl : other = row := List.inj_on_of_nodup_map keys inside member names
      rw [flushRow_of_mem tracks.distinct present (rowAfter_id.trans own.symm), same]
      exact copyOf_flush (rowAfter_id.trans rowAfter_id.symm)
        (rowAfter_departmentId.trans rowAfter_departmentId.symm)
    · obtain ⟨same, stored⟩ := tracks.untouched member held
      rw [same, stored]
      exact flushRow_of_absent held
  refine ⟨?_, ids ▸ tracks.distinct, ?_, tracks.others_snoc ids fun _ => rfl,
    tracks.loaded_snoc ids (by simp)⟩
  · rw [settled_commit]
    show flushAgents s.agents s.db.agentInstances = _
    rw [flushAgents_map, tracks.stored, List.map_map]
    exact List.map_congr_left fun row member => (written row member).trans (after row).symm
  · intro copy member
    rw [settled_commit]
    rw [agents] at member
    obtain ⟨old, was, rfl⟩ := List.mem_map.mp member
    obtain ⟨row, inside, same⟩ := tracks.copies old was
    refine ⟨row, inside, ?_⟩
    rw [after, same]
    simp [copyOf, AgentCopy.committed, Tracked.committed]

/-- Every agent that a program assigns to is one of a department whose agents it has read. -/
def Fetched (db : CompanyDatabase) (program : List Statement) : Prop :=
  ∀ before id change, before ++ [.agent id change] <+: program → ∃ departmentId,
    .getAgents departmentId ∈ before ∧ id ∈ (db.agentsOf departmentId).map AgentInstance.id

theorem Fetched.start {first : List Statement} (fetched : Fetched db program)
    (part : first <+: program) : Fetched db first :=
  fun before id change inside => fetched before id change (inside.trans part)

/-- A program that reads the agents first. -/
theorem fetched_of_read {first rest : List Statement} {departmentId : String}
    (silent : ∀ id, changesTo id first = []) (read : .getAgents departmentId ∈ first)
    (listed : ∀ id change, .agent id change ∈ rest →
      id ∈ (db.agentsOf departmentId).map AgentInstance.id) : Fetched db (first ++ rest) := by
  intro before id change part
  have outside : .agent id change ∉ first := by
    rw [← mem_changesTo, silent]
    exact List.not_mem_nil
  rcases List.prefix_or_prefix_of_prefix part (List.prefix_append first rest) with short | long
  · exact absurd (short.subset (by simp)) outside
  rcases List.prefix_concat_iff.mp long with same | inside
  · exact absurd (same ▸ by simp) outside
  refine ⟨departmentId, inside.subset read, listed id change ?_⟩
  have present : .agent id change ∈ first ++ rest := part.subset (by simp)
  exact (List.mem_append.mp present).resolve_left outside

theorem Fetched.append (fetched : Fetched db program) {rest : List Statement}
    (silent : ∀ id, changesTo id rest = []) : Fetched db (program ++ rest) := by
  intro before id change part
  rcases List.prefix_or_prefix_of_prefix part (List.prefix_append program rest) with short | long
  · exact fetched before id change short
  rcases List.prefix_concat_iff.mp long with same | inside
  · exact fetched before id change (same ▸ List.prefix_rfl)
  obtain ⟨gap, rfl⟩ := inside
  rw [List.append_assoc, List.prefix_append_right_inj] at part
  have present : change ∈ changesTo id rest := mem_changesTo.mpr (part.subset (by simp))
  rw [silent] at present
  cases present

theorem tracks_execute (keys : (db.agentInstances.map AgentInstance.id).Nodup)
    (workflow : Workflows.WorkflowCopy) (fetched : Fetched db program) :
    Tracks db.agentInstances program (execute (Session.start db workflow) program) := by
  induction program using List.reverseRecOn with
  | nil =>
    refine ⟨?_, List.nodup_nil, ?_, fun _ _ _ => rfl, ?_⟩
    · exact (List.map_id _).symm
    · intro copy member
      cases member
    · intro departmentId read
      cases read
  | append_singleton program last ih =>
    have tracks := ih (fetched.start (List.prefix_append _ _))
    rw [execute_snoc]
    cases last with
    | getAgents departmentId => exact tracks.getAgents keys departmentId
    | commit => exact tracks.commit keys
    | agent id change =>
      obtain ⟨departmentId, read, present⟩ := fetched program id change List.prefix_rfl
      obtain ⟨row, member, rfl⟩ := List.mem_map.mp present
      obtain ⟨inside, own⟩ := List.mem_filter.mp member
      exact tracks.agent change (tracks.loaded departmentId read row inside (eq_of_beq own))
    | _ => exact tracks.keep rfl rfl (by simp) (fun _ => rfl) (by simp)

end Tracks

end BusinessOs.App.AgentRows
