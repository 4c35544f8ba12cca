/- Source: app/services/departments.py (DepartmentFactory.ensure_company_layer),
     app/services/skills.py (SkillRegistry.seed_core_skills, assign_relevant_skills)
   digest: The commits of a call that ensures the company layer, and what each of them finds. -/

import BusinessOs.App.Models
import BusinessOs.App.SkillIsolation
import BusinessOs.Lib.Commits

set_option autoImplicit false
set_option relaxedAutoImplicit false

namespace BusinessOs.App.CompanyCommits

open BusinessOs.Lib BusinessOs.Lib.Commits BusinessOs.App.Skills BusinessOs.App.DepartmentFactory
open BusinessOs.App.SkillIsolation

/-- What one commit writes; the log of the audit is not a table of the registry. -/
inductive Commit
  | skill (row : Skill)
  | agent (row : AgentInstance)
  | assignment (row : AgentSkillAssignment)
  | audit (action : Models.AuditAction)

def commit (s : Registry) : Commit → Registry
  | .skill row => { s with skills := s.skills ++ [row] }
  | .agent row => { s with agents := s.agents ++ [row] }
  | .assignment row => { s with assignments := s.assignments ++ [row] }
  | .audit _ => s

section Calls

variable (env : Surroundings)

def seedOneCommits (s : Registry) (core : CoreSkill) : List Commit :=
  if s.skills.any (isCore core) then []
  else [.skill (coreRow env s core), .audit .skillRegistered]

/-- The commits of `seed_core_skills`. -/
def seedCommits (s : Registry) : List Commit := loop commit (seedOneCommits env) coreSkills s

def assignOneCommits (agent : AgentInstance) (s : Registry) (skill : Skill) : List Commit :=
  if s.assignments.contains ⟨agent.id, skill.id⟩ then []
  else [.assignment ⟨agent.id, skill.id⟩, .audit .skillAssigned]

/-- The commits of `assign_relevant_skills`. -/
def assignCommits (agent : AgentInstance) (departmentType : String) (s : Registry) : List Commit :=
  andThen commit s (seedCommits env s) fun seeded =>
    loop commit (assignOneCommits agent)
      (seeded.skills.filter (isRelevant env agent.role departmentType)) seeded

def companyTurnCommits (s : Registry) (role : String) : List Commit :=
  if hasCompanyAgent s role then []
  else
    let agent := newAgent env s none role
    andThen commit s [.agent agent, .audit .agentSpawned] (assignCommits env agent "company")

/-- The commits of `ensure_company_layer`. -/
def ensureCommits (s : Registry) : List Commit :=
  andThen commit s (seedCommits env s) (loop commit (companyTurnCommits env) companyAgents)

end Calls

section Replay

variable {env : Surroundings} {s : Registry}

theorem replay_seed (s : Registry) :
    replay commit s (seedCommits env s) = seedCoreSkills env s := by
  have turn : (fun s core => replay commit s (seedOneCommits env s core)) = seedOne env := by
    funext s core
    unfold seedOneCommits seedOne
    split_ifs <;> rfl
  rw [seedCommits, replay_loop, turn, seedCoreSkills]

theorem replay_assign (agent : AgentInstance) (departmentType : String) (s : Registry) :
    replay commit s (assignCommits env agent departmentType s) =
      assignRelevantSkills env agent departmentType s := by
  have turn : (fun s skill => replay commit s (assignOneCommits agent s skill)) =
      assignOne agent := by
    funext s skill
    unfold assignOneCommits assignOne
    split_ifs <;> rfl
  rw [assignCommits, replay_andThen, replay_loop, turn, replay_seed, assignRelevantSkills]

theorem replay_companyTurn (s : Registry) (role : String) :
    replay commit s (companyTurnCommits env s role) = companyTurn env s role := by
  unfold companyTurnCommits companyTurn
  split_ifs
  · rfl
  · rw [replay_andThen, replay_assign, spawnAgent]
    rfl

/-- All of its commits together are the call. -/
theorem replay_ensure (s : Registry) :
    replay commit s (ensureCommits env s) = ensureCompanyLayer env s := by
  have turn : (fun s role => replay commit s (companyTurnCommits env s role)) =
      companyTurn env := by
    funext s role
    exact replay_companyTurn s role
  rw [ensureCommits, replay_andThen, replay_loop, turn, replay_seed, ensureCompanyLayer]

end Replay

/-! The rows behind some commits. -/

section Rows

variable {s : Registry} {commits : List Commit}

theorem mem_agents_replay {agent : AgentInstance} :
    agent ∈ (replay commit s commits).agents ↔ agent ∈ s.agents ∨ .agent agent ∈ commits := by
  refine replay_iff_mem (I := fun s => agent ∈ s.agents) (fun s d => ?_) s commits
  cases d <;> simp [commit]

theorem mem_skills_replay {skill : Skill} :
    skill ∈ (replay commit s commits).skills ↔ skill ∈ s.skills ∨ .skill skill ∈ commits := by
  refine replay_iff_mem (I := fun s => skill ∈ s.skills) (fun s d => ?_) s commits
  cases d <;> simp [commit]

theorem mem_assignments_replay {row : AgentSkillAssignment} :
    row ∈ (replay commit s commits).assignments ↔
      row ∈ s.assignments ∨ .assignment row ∈ commits := by
  refine replay_iff_mem (I := fun s => row ∈ s.assignments) (fun s d => ?_) s commits
  cases d <;> simp [commit]

end Rows

/-! What each commit finds. -/

section Found

variable (env : Surroundings)

/-- Every core skill has its row. -/
def AllSeeded (s : Registry) : Prop := ∀ core ∈ coreSkills, s.skills.any (isCore core) = true

/-- What a commit of the call finds: no row of its kind, and for an agent all the core skills; the
agents that are handed skills were not there before the call. -/
def Finds (old : List AgentInstance) (s : Registry) : Commit → Prop
  | .skill row => row.id ∉ s.skills.map Skill.id ∧ row.status = .active ∧
      ∃ core ∈ coreSkills, isCore core row = true ∧ s.skills.any (isCore core) = false
  | .agent row => row.id ∉ s.agents.map AgentInstance.id ∧ row.departmentId = none ∧
      row.role ∈ companyAgents ∧ hasCompanyAgent s row.role = false ∧ AllSeeded s
  | .assignment row => row ∉ s.assignments ∧
      ∃ agent ∈ s.agents, agent ∉ old ∧ agent.id = row.agentId ∧
        ∃ skill ∈ s.skills, skill.id = row.skillId ∧
          isRelevant env agent.role "company" skill = true
  | .audit _ => True

end Found

section Meets

variable {env : Surroundings} {s : Registry} {old : List AgentInstance}

theorem isCore_coreRow (env : Surroundings) (s : Registry) (core : CoreSkill) :
    isCore core (coreRow env s core) = true := by
  simp [isCore, coreRow]

theorem meets_seedOne {core : CoreSkill} (member : core ∈ coreSkills) :
    Meets commit (Finds env old) s (seedOneCommits env s core) := by
  unfold seedOneCommits
  split_ifs with there
  · exact .nil s
  · refine .cons ⟨newId_not_skill, rfl, core, member, isCore_coreRow env s core, ?_⟩
      (.cons trivial (.nil _))
    exact Bool.eq_false_iff.mpr there

theorem meets_seed : Meets commit (Finds env old) s (seedCommits env s) :=
  Meets.loop (I := fun _ => True) (fun _ _ member _ => ⟨meets_seedOne member, trivial⟩) trivial

/-- A skill that is there stays. -/
theorem any_seedOne {core other : CoreSkill} (there : s.skills.any (isCore other) = true) :
    (seedOne env s core).skills.any (isCore other) = true := by
  unfold seedOne
  split_ifs
  · exact there
  · rw [List.any_append, there, Bool.true_or]

theorem any_foldl_seedOne {core : CoreSkill} (cores : List CoreSkill)
    (there : s.skills.any (isCore core) = true ∨ core ∈ cores) :
    (cores.foldl (seedOne env) s).skills.any (isCore core) = true := by
  induction cores generalizing s with
  | nil => exact there.resolve_right (List.not_mem_nil)
  | cons first cores ih =>
    rw [List.foldl_cons]
    apply ih
    rcases there with before | member
    · exact .inl (any_seedOne before)
    · rcases List.mem_cons.mp member with rfl | later
      · left
        unfold seedOne
        split_ifs with already
        · exact already
        · rw [List.any_append, List.any_cons, isCore_coreRow, Bool.true_or, Bool.or_true]
      · exact .inr later

theorem seedCoreSkills_assignments (s : Registry) :
    (seedCoreSkills env s).assignments = s.assignments := by
  refine List.foldlRecOn (motive := fun t => t.assignments = s.assignments) coreSkills
    (seedOne env) rfl ?_
  intro t same core _
  unfold seedOne
  split_ifs
  · exact same
  · exact same

theorem allSeeded_seed (s : Registry) : AllSeeded (seedCoreSkills env s) :=
  fun _ member => any_foldl_seedOne coreSkills (.inr member)

/-- Where all core skills are there, seeding commits nothing. -/
theorem seedCommits_idle (all : AllSeeded s) : seedCommits env s = [] := by
  refine loop_idle fun core member => ?_
  rw [seedOneCommits, if_pos (all core member)]

theorem seedCoreSkills_idle (all : AllSeeded s) : seedCoreSkills env s = s := by
  rw [← replay_seed, seedCommits_idle all]
  rfl

end Meets

/-! What a turn of the loop leaves where all core skills are there. -/

section Turn

variable {env : Surroundings} {s : Registry} {old : List AgentInstance}

theorem foldl_assignOne (agent : AgentInstance) (rows : List Skill) (s : Registry) :
    (rows.foldl (assignOne agent) s).skills = s.skills ∧
      (rows.foldl (assignOne agent) s).agents = s.agents ∧
      ∀ a, a ∈ (rows.foldl (assignOne agent) s).assignments ↔
        a ∈ s.assignments ∨ ∃ skill ∈ rows, a = ⟨agent.id, skill.id⟩ := by
  induction rows generalizing s with
  | nil => simp
  | cons skill rows ih =>
    obtain ⟨skills, agents, assignments⟩ := ih (assignOne agent s skill)
    have one : ∀ a, a ∈ (assignOne agent s skill).assignments ↔
        a ∈ s.assignments ∨ a = ⟨agent.id, skill.id⟩ := by
      intro a
      unfold assignOne
      split_ifs with there
      · refine ⟨.inl, ?_⟩
        rintro (before | rfl)
        · exact before
        · exact List.contains_iff_mem.mp there
      · rw [List.mem_append, List.mem_singleton]
    rw [List.foldl_cons]
    refine ⟨skills.trans (assignOne_skills agent skill),
      agents.trans (assignOne_agents agent skill), fun a => ?_⟩
    rw [assignments, one, or_assoc, List.exists_mem_cons_iff]

/-- A new agent of the company, assigned to every skill for its role. -/
structure Spawned (env : Surroundings) (s : Registry) (role : String) (t : Registry) : Prop where
  skills : t.skills = s.skills
  agents : t.agents = s.agents ++ [newAgent env s none role]
  assignments : ∀ a, a ∈ t.assignments ↔ a ∈ s.assignments ∨
    ∃ skill ∈ s.skills, isRelevant env role "company" skill = true ∧
      a = ⟨(newAgent env s none role).id, skill.id⟩

/-- A role that has an agent is passed over, and any other gets one. -/
theorem companyTurn_cases (env : Surroundings) (all : AllSeeded s) (role : String) :
    (hasCompanyAgent s role = true ∧ companyTurn env s role = s) ∨
      (hasCompanyAgent s role = false ∧ Spawned env s role (companyTurn env s role)) := by
  unfold companyTurn
  cases there : hasCompanyAgent s role with
  | true => exact .inl ⟨rfl, rfl⟩
  | false =>
    right
    let agent := newAgent env s none role
    let founded : Registry := { s with agents := s.agents ++ [agent] }
    have idle : seedCoreSkills env founded = founded := seedCoreSkills_idle all
    obtain ⟨skills, agents, assignments⟩ := foldl_assignOne agent
      (founded.skills.filter (isRelevant env agent.role "company")) founded
    rw [if_neg Bool.false_ne_true, spawnAgent, assignRelevantSkills, idle]
    refine ⟨rfl, skills, agents, fun a => (assignments a).trans ?_⟩
    simp only [List.mem_filter, and_assoc]
    exact Iff.rfl

theorem meets_assign {agent : AgentInstance} (there : agent ∈ s.agents) (new : agent ∉ old)
    (all : AllSeeded s) :
    Meets commit (Finds env old) s (assignCommits env agent "company" s) := by
  refine meets_seed.andThen ?_
  rw [replay_seed, seedCoreSkills_idle all]
  let rows := s.skills.filter (isRelevant env agent.role "company")
  refine Meets.loop (I := fun t => agent ∈ t.agents ∧ t.skills = s.skills) ?_ ⟨there, rfl⟩
  intro t skill member held
  obtain ⟨inside, relevant⟩ := List.mem_filter.mp member
  unfold assignOneCommits
  split_ifs with already
  · exact ⟨.nil t, held⟩
  · have absent : (⟨agent.id, skill.id⟩ : AgentSkillAssignment) ∉ t.assignments :=
      fun found => already (List.contains_iff_mem.mpr found)
    exact ⟨.cons ⟨absent, agent, held.1, new, rfl, skill, held.2 ▸ inside, rfl, relevant⟩
      (.cons trivial (.nil _)), held⟩

theorem meets_companyTurn {role : String} (member : role ∈ companyAgents) (all : AllSeeded s)
    (kept : old ⊆ s.agents) : Meets commit (Finds env old) s (companyTurnCommits env s role) := by
  unfold companyTurnCommits
  split_ifs with there
  · exact .nil s
  · let agent := newAgent env s none role
    have newId : agent.id ∉ s.agents.map AgentInstance.id := newId_not_agent
    have new : agent ∉ old := fun before => newId (List.mem_map_of_mem (kept before))
    have missing : hasCompanyAgent s agent.role = false := Bool.eq_false_iff.mpr there
    refine Meets.andThen (.cons ⟨newId, rfl, member, missing, all⟩ (.cons trivial (.nil _))) ?_
    exact meets_assign (List.mem_append_right _ (List.mem_singleton_self _)) new all

theorem companyTurn_seeded (all : AllSeeded s) (role : String) :
    AllSeeded (companyTurn env s role) := by
  rcases companyTurn_cases env all role with ⟨_, same⟩ | ⟨_, spawned⟩
  · rw [same]
    exact all
  · unfold AllSeeded
    rw [spawned.skills]
    exact all

theorem companyTurn_agents (all : AllSeeded s) (role : String) :
    s.agents ⊆ (companyTurn env s role).agents := by
  rcases companyTurn_cases env all role with ⟨_, same⟩ | ⟨_, spawned⟩
  · rw [same]
    exact List.Subset.refl _
  · rw [spawned.agents]
    exact List.subset_append_left _ _

/-- Every commit of the call finds what it looks for missing. -/
theorem meets_ensure (env : Surroundings) (s : Registry) :
    Meets commit (Finds env s.agents) s (ensureCommits env s) := by
  have still : s.agents ⊆ (seedCoreSkills env s).agents := by
    rw [(seeded env s).agents]
    exact List.Subset.refl _
  refine meets_seed.andThen ?_
  rw [replay_seed]
  refine Meets.loop (I := fun t => AllSeeded t ∧ s.agents ⊆ t.agents) ?_
    ⟨allSeeded_seed s, still⟩
  rintro t role member ⟨all, kept⟩
  rw [replay_companyTurn]
  exact ⟨meets_companyTurn member all kept, companyTurn_seeded all role,
    List.Subset.trans kept (companyTurn_agents all role)⟩

end Turn

end BusinessOs.App.CompanyCommits
