/- Source: app/services/skills.py, app/services/departments.py
   digest: When no agent is handed a skill that is scoped to another department or agent. -/

import BusinessOs.App.DepartmentFactory
import BusinessOs.Lib.Execution

set_option autoImplicit false
set_option relaxedAutoImplicit false

namespace BusinessOs.App.SkillIsolation

open BusinessOs.Lib BusinessOs.Lib.Execution BusinessOs.App.Skills BusinessOs.App.DepartmentFactory

/-- What the scope of a skill admits. -/
inductive Fits (skill : Skill) (agent : AgentInstance) : Prop
  | company (scope : skill.scope = .company)
  | department (scope : skill.scope = .department) (same : skill.departmentId = agent.departmentId)
  | agent (scope : skill.scope = .agent) (own : skill.agentId = some agent.id)

/-- Every assignment links an agent to a skill whose scope admits it. -/
def Isolated (s : Registry) : Prop :=
  ∀ a ∈ s.assignments, ∀ agent ∈ s.agents, agent.id = a.agentId →
    ∀ skill ∈ s.skills, skill.id = a.skillId → Fits skill agent

/-- The calls of the registry and of the factory. -/
inductive Call
  | skills (call : SkillCall)
  | ensureCompanyLayer
  | launch (description : String)
  | assign (agent : AgentInstance) (departmentType : String)

/-- A skill that the scope admits for a new agent, whose id no skill names. -/
inductive Open (departmentId : Option String) (skill : Skill) : Prop
  | company (scope : skill.scope = .company)
  | department (scope : skill.scope = .department) (same : skill.departmentId = departmentId)

section Guard

variable (env : Surroundings)

/-- A completed call. -/
def Step (s : Registry) : Call → Registry → Prop
  | .skills call, t => performSkillCall env s call = some t
  | .ensureCompanyLayer, t => ensureCompanyLayer env s = t
  | .launch description, t => launchFromDescription env s description = t
  | .assign agent departmentType, t =>
    agent ∈ s.agents ∧ assignRelevantSkills env agent departmentType s = t

/-- Every active skill with a slug for the role is open to a new agent. -/
def Suits (s : Registry) (departmentId : Option String) (departmentType role : String) : Prop :=
  ∀ skill ∈ s.skills, isRelevant env role departmentType skill = true → Open departmentId skill

end Guard

/-- Ids are distinct, and assignments link rows that there are. -/
structure Inv (s : Registry) : Prop where
  skillIds : (s.skills.map Skill.id).Nodup
  agentIds : (s.agents.map AgentInstance.id).Nodup
  links : ∀ a ∈ s.assignments,
    a.agentId ∈ s.agents.map AgentInstance.id ∧ a.skillId ∈ s.skills.map Skill.id

section Rows

variable {env : Surroundings} {s : Registry}

theorem mem_mentioned {id : String} : id ∈ s.mentioned ↔
    id ∈ s.skills.map Skill.id ∨ some id ∈ s.skills.map Skill.departmentId ∨
      some id ∈ s.skills.map Skill.agentId ∨ id ∈ s.agents.map AgentInstance.id ∨
      id ∈ s.departments := by
  simp only [Registry.mentioned, List.mem_append, List.mem_filterMap, List.mem_map, or_assoc]

theorem newId_not_skill : env.newId s.mentioned ∉ s.skills.map Skill.id := by
  intro member
  exact env.newId_new s.mentioned (mem_mentioned.mpr (.inl member))

theorem agentId_ne_newId {skill : Skill} (member : skill ∈ s.skills) :
    skill.agentId ≠ some (env.newId s.mentioned) := by
  intro same
  have named := List.mem_map.mpr ⟨skill, member, same⟩
  exact env.newId_new s.mentioned (mem_mentioned.mpr (.inr (.inr (.inl named))))

theorem newId_not_agent : env.newId s.mentioned ∉ s.agents.map AgentInstance.id := by
  intro member
  exact env.newId_new s.mentioned (mem_mentioned.mpr (.inr (.inr (.inr (.inl member)))))

/-! What one written row changes. -/

theorem Inv.insertSkill (inv : Inv s) (row : Skill) (new : row.id ∉ s.skills.map Skill.id) :
    Inv { s with skills := s.skills ++ [row] } := by
  refine ⟨Table.nodup_append inv.skillIds new, inv.agentIds, fun a member => ?_⟩
  obtain ⟨agent, skill⟩ := inv.links a member
  rw [List.map_append]
  exact ⟨agent, List.mem_append_left _ skill⟩

theorem isolated_insertSkill (inv : Inv s) (row : Skill) (new : row.id ∉ s.skills.map Skill.id) :
    Isolated { s with skills := s.skills ++ [row] } ↔ Isolated s := by
  constructor
  · intro isolated a member agent there linked skill inside
    exact isolated a member agent there linked skill (List.mem_append_left _ inside)
  · intro isolated a member agent there linked skill inside same
    rcases List.mem_append.mp inside with old | last
    · exact isolated a member agent there linked skill old same
    · obtain rfl := List.mem_singleton.mp last
      exact absurd (same ▸ (inv.links a member).2) new

section Update

variable {write : Skill → Skill} (same : ∀ row, SameGrant row (write row)) (id : String)

include same

end Update

theorem Inv.insertAgent (inv : Inv s) (agent : AgentInstance)
    (new : agent.id ∉ s.agents.map AgentInstance.id) :
    Inv { s with agents := s.agents ++ [agent] } := by
  refine ⟨inv.skillIds, Table.nodup_append inv.agentIds new, fun a member => ?_⟩
  obtain ⟨owner, skill⟩ := inv.links a member
  rw [List.map_append]
  exact ⟨List.mem_append_left _ owner, skill⟩

theorem isolated_insertAgent (inv : Inv s) (agent : AgentInstance)
    (new : agent.id ∉ s.agents.map AgentInstance.id) :
    Isolated { s with agents := s.agents ++ [agent] } ↔ Isolated s := by
  constructor
  · intro isolated a member owner there
    exact isolated a member owner (List.mem_append_left _ there)
  · intro isolated a member owner there linked
    rcases List.mem_append.mp there with old | last
    · exact isolated a member owner old linked
    · obtain rfl := List.mem_singleton.mp last
      exact absurd (linked ▸ (inv.links a member).1) new

theorem Inv.insertAssignment (inv : Inv s) {agent : AgentInstance} {skill : Skill}
    (there : agent ∈ s.agents) (inside : skill ∈ s.skills) :
    Inv { s with assignments := s.assignments ++ [⟨agent.id, skill.id⟩] } := by
  refine ⟨inv.skillIds, inv.agentIds, fun a member => ?_⟩
  rcases List.mem_append.mp member with old | last
  · exact inv.links a old
  · obtain rfl := List.mem_singleton.mp last
    exact ⟨List.mem_map_of_mem there, List.mem_map_of_mem inside⟩

theorem isolated_insertAssignment (inv : Inv s) {agent : AgentInstance} {skill : Skill}
    (there : agent ∈ s.agents) (inside : skill ∈ s.skills) :
    Isolated { s with assignments := s.assignments ++ [⟨agent.id, skill.id⟩] } ↔
      Isolated s ∧ Fits skill agent := by
  constructor
  · intro isolated
    refine ⟨fun a member => isolated a (List.mem_append_left _ member), ?_⟩
    exact isolated _ (List.mem_append_right _ (List.mem_singleton_self _)) agent there rfl skill
      inside rfl
  · rintro ⟨isolated, fits⟩ a member owner ownerThere linked row rowInside same
    rcases List.mem_append.mp member with old | last
    · exact isolated a old owner ownerThere linked row rowInside same
    · obtain rfl := List.mem_singleton.mp last
      obtain rfl : owner = agent := List.inj_on_of_nodup_map inv.agentIds ownerThere there linked
      obtain rfl : row = skill := List.inj_on_of_nodup_map inv.skillIds rowInside inside same
      exact fits

end Rows

/-- A part of a call that adds no skill but the company's. -/
structure Grown (s t : Registry) : Prop where
  kept : ∀ skill ∈ s.skills, skill ∈ t.skills
  origin : ∀ skill ∈ t.skills, skill ∈ s.skills ∨ skill.scope = .company

section Assign

variable {env : Surroundings} {r s t : Registry} {departmentId : Option String}
  {departmentType role : String}

theorem Grown.refl (s : Registry) : Grown s s := ⟨fun _ member => member, fun _ => .inl⟩

theorem Grown.trans (rs : Grown r s) (st : Grown s t) : Grown r t := by
  refine ⟨fun skill member => st.kept skill (rs.kept skill member), fun skill member => ?_⟩
  rcases st.origin skill member with old | company
  · exact rs.origin skill old
  · exact .inr company

/-- What holds of every skill of the company holds of all skills as soon as it did before. -/
theorem Grown.forall_iff {P : Skill → Prop} (grown : Grown s t)
    (company : ∀ skill : Skill, skill.scope = .company → P skill) :
    (∀ skill ∈ t.skills, P skill) ↔ ∀ skill ∈ s.skills, P skill := by
  constructor
  · intro all skill member
    exact all skill (grown.kept skill member)
  · intro all skill member
    rcases grown.origin skill member with old | own
    · exact all skill old
    · exact company skill own

/-- What seeding leaves of everything but the skills of the company. -/
structure Seeded (s t : Registry) : Prop where
  grown : Grown s t
  agents : t.agents = s.agents
  inv : Inv s → Inv t
  isolated : Inv s → (Isolated t ↔ Isolated s)

theorem Seeded.refl (s : Registry) : Seeded s s := ⟨.refl s, rfl, id, fun _ => .rfl⟩

theorem Seeded.trans (rs : Seeded r s) (st : Seeded s t) : Seeded r t :=
  ⟨rs.grown.trans st.grown, st.agents.trans rs.agents, fun inv => st.inv (rs.inv inv),
    fun inv => (st.isolated (rs.inv inv)).trans (rs.isolated inv)⟩

theorem seeded_one (s : Registry) (core : CoreSkill) : Seeded s (seedOne env s core) := by
  unfold seedOne
  split_ifs
  · exact .refl s
  · have new : (coreRow env s core).id ∉ s.skills.map Skill.id := newId_not_skill
    refine ⟨⟨fun _ member => List.mem_append_left _ member, fun skill member => ?_⟩, rfl,
      fun inv => inv.insertSkill _ new, fun inv => isolated_insertSkill inv _ new⟩
    rcases List.mem_append.mp member with old | last
    · exact .inl old
    · rw [List.mem_singleton.mp last]
      exact .inr rfl

theorem seeded_foldl (cores : List CoreSkill) (s : Registry) :
    Seeded s (cores.foldl (seedOne env) s) := by
  induction cores generalizing s with
  | nil => exact .refl s
  | cons core cores ih => exact (seeded_one s core).trans (ih _)

theorem seeded (env : Surroundings) (s : Registry) : Seeded s (seedCoreSkills env s) :=
  seeded_foldl coreSkills s

theorem assignOne_skills (agent : AgentInstance) (skill : Skill) :
    (assignOne agent s skill).skills = s.skills := by
  unfold assignOne
  split_ifs <;> rfl

theorem assignOne_agents (agent : AgentInstance) (skill : Skill) :
    (assignOne agent s skill).agents = s.agents := by
  unfold assignOne
  split_ifs <;> rfl

theorem Inv.assignOne (inv : Inv s) {agent : AgentInstance} {skill : Skill}
    (there : agent ∈ s.agents) (inside : skill ∈ s.skills) : Inv (assignOne agent s skill) := by
  unfold Skills.assignOne
  split_ifs
  · exact inv
  · exact inv.insertAssignment there inside

/-- A skill that is assigned already is skipped. -/
theorem isolated_assignOne (inv : Inv s) {agent : AgentInstance} {skill : Skill}
    (there : agent ∈ s.agents) (inside : skill ∈ s.skills) :
    Isolated (assignOne agent s skill) ↔ Isolated s ∧ Fits skill agent := by
  unfold assignOne
  by_cases assigned : s.assignments.contains ⟨agent.id, skill.id⟩ = true
  · rw [if_pos assigned]
    refine ⟨fun isolated => ⟨isolated, ?_⟩, And.left⟩
    exact isolated _ (List.contains_iff_mem.mp assigned) agent there rfl skill inside rfl
  · rw [if_neg assigned]
    exact isolated_insertAssignment inv there inside

/-- The loop of `assign_relevant_skills` over some of the skills. -/
structure Assigned (agent : AgentInstance) (rows : List Skill) (s t : Registry) : Prop where
  skills : t.skills = s.skills
  agents : t.agents = s.agents
  inv : Inv t
  isolated : Isolated t ↔ Isolated s ∧ ∀ skill ∈ rows, Fits skill agent

theorem assigned_foldl {agent : AgentInstance} (rows : List Skill) (inv : Inv s)
    (there : agent ∈ s.agents) (inside : ∀ skill ∈ rows, skill ∈ s.skills) :
    Assigned agent rows s (rows.foldl (assignOne agent) s) := by
  induction rows generalizing s with
  | nil => exact ⟨rfl, rfl, inv, by simp⟩
  | cons skill rows ih =>
    have member : skill ∈ s.skills := inside skill List.mem_cons_self
    have sameSkills := assignOne_skills (s := s) agent skill
    have sameAgents := assignOne_agents (s := s) agent skill
    have rest := ih (inv.assignOne there member) (sameAgents ▸ there)
      (fun other later => sameSkills ▸ inside other (List.mem_cons_of_mem _ later))
    refine ⟨rest.skills.trans sameSkills, rest.agents.trans sameAgents, rest.inv, ?_⟩
    rw [List.foldl_cons, rest.isolated, isolated_assignOne inv there member, and_assoc,
      List.forall_mem_cons]

theorem Grown.of_eq (same : t.skills = s.skills) : Grown s t :=
  ⟨fun _ member => same ▸ member, fun _ member => .inl (same ▸ member)⟩

/-- What a call leaves that hands an agent its skills. -/
structure Handed (condition : Prop) (s t : Registry) : Prop where
  grown : Grown s t
  inv : Inv t
  isolated : Isolated t ↔ Isolated s ∧ condition

theorem assigned_relevant (env : Surroundings) (departmentType : String) {agent : AgentInstance}
    (inv : Inv s) (there : agent ∈ s.agents) :
    Assigned agent
      ((seedCoreSkills env s).skills.filter (isRelevant env agent.role departmentType))
      (seedCoreSkills env s) (assignRelevantSkills env agent departmentType s) := by
  have seed := seeded env s
  have still : agent ∈ (seedCoreSkills env s).agents := by
    rw [seed.agents]
    exact there
  exact assigned_foldl _ (seed.inv inv) still fun _ member => List.mem_of_mem_filter member

theorem assignRelevantSkills_agents (env : Surroundings) (departmentType : String)
    {agent : AgentInstance} (inv : Inv s) (there : agent ∈ s.agents) :
    (assignRelevantSkills env agent departmentType s).agents = s.agents :=
  (assigned_relevant env departmentType inv there).agents.trans (seeded env s).agents

theorem handed_assign (env : Surroundings) (departmentType : String) {agent : AgentInstance}
    (inv : Inv s) (there : agent ∈ s.agents) :
    Handed (∀ skill ∈ s.skills, isRelevant env agent.role departmentType skill = true →
        Fits skill agent)
      s (assignRelevantSkills env agent departmentType s) := by
  have seed := seeded env s
  have handed := assigned_relevant env departmentType inv there
  refine ⟨seed.grown.trans (.of_eq handed.skills), handed.inv, ?_⟩
  have fits : (∀ skill ∈ (seedCoreSkills env s).skills,
      isRelevant env agent.role departmentType skill = true → Fits skill agent) ↔
      ∀ skill ∈ s.skills, isRelevant env agent.role departmentType skill = true →
        Fits skill agent :=
    seed.grown.forall_iff fun _ scope _ => .company scope
  rw [← fits, handed.isolated, seed.isolated inv]
  simp only [List.mem_filter, and_imp]

/-- Nothing is scoped to an agent that is not there yet. -/
theorem fits_newAgent (env : Surroundings) (departmentId : Option String) (role : String)
    {skill : Skill} (member : skill ∈ s.skills) :
    Fits skill (newAgent env s departmentId role) ↔ Open departmentId skill := by
  constructor
  · rintro (scope | ⟨scope, same⟩ | ⟨_, own⟩)
    · exact .company scope
    · exact .department scope same
    · exact absurd own (agentId_ne_newId member)
  · rintro (scope | ⟨scope, same⟩)
    · exact .company scope
    · exact .department scope same

theorem handed_spawn (env : Surroundings) (departmentId : Option String)
    (departmentType role : String) (inv : Inv s) :
    Handed (Suits env s departmentId departmentType role) s
      (spawnAgent env departmentId departmentType s role) := by
  have new : (newAgent env s departmentId role).id ∉ s.agents.map AgentInstance.id :=
    newId_not_agent
  have handed := handed_assign env departmentType (inv.insertAgent _ new)
    (List.mem_append_right s.agents (List.mem_singleton_self _))
  refine ⟨⟨handed.grown.kept, handed.grown.origin⟩, handed.inv, handed.isolated.trans ?_⟩
  refine and_congr (isolated_insertAgent inv _ new) ?_
  refine forall₂_congr fun skill member => imp_congr_right fun _ => ?_
  exact fits_newAgent (s := s) env departmentId role member

theorem hasCompanyAgent_turn (inv : Inv s) (other : String) :
    hasCompanyAgent (companyTurn env s role) other = true ↔
      hasCompanyAgent s other = true ∨ role = other := by
  unfold companyTurn
  by_cases there : hasCompanyAgent s role = true
  · rw [if_pos there]
    refine ⟨.inl, ?_⟩
    rintro (already | rfl)
    · exact already
    · exact there
  · rw [if_neg there]
    have new : (newAgent env s none role).id ∉ s.agents.map AgentInstance.id := newId_not_agent
    have agents := assignRelevantSkills_agents env "company" (inv.insertAgent _ new)
      (List.mem_append_right s.agents (List.mem_singleton_self _))
    unfold spawnAgent hasCompanyAgent
    rw [agents, List.any_append, Bool.or_eq_true]
    simp [newAgent]

/-- A role that has an agent is passed over. -/
theorem handed_companyTurn (env : Surroundings) (role : String) (inv : Inv s) :
    Handed (hasCompanyAgent s role = false → Suits env s none "company" role) s
      (companyTurn env s role) := by
  unfold companyTurn
  cases there : hasCompanyAgent s role with
  | true => exact ⟨.refl s, inv, by simp⟩
  | false =>
    have spawned := handed_spawn env none "company" role inv
    refine ⟨spawned.grown, spawned.inv, spawned.isolated.trans ?_⟩
    simp

theorem Seeded.hasCompanyAgent (seed : Seeded s t) (role : String) :
    hasCompanyAgent t role = hasCompanyAgent s role := by
  unfold DepartmentFactory.hasCompanyAgent
  rw [seed.agents]

end Assign

section Steps

variable {env : Surroundings} {s t : Registry}

end Steps

section Sample

/-- A skill that its maker scopes to one department. -/
def sampleCreation : Creation where
  description := "Reports on the figures of the payroll."
  name := some "Analytics Reporting"
  scope := .department
  departmentId := some "payroll"

def sampleScoped : Registry :=
  createFromDescription sampleSurroundings Registry.empty sampleCreation

/-- Then another department is launched. -/
def sampleLaunched : Registry :=
  launchFromDescription sampleSurroundings sampleScoped "Create a sales department"

theorem sample_run : Run (Step sampleSurroundings) Registry.empty
    [.skills (.create sampleCreation), .launch "Create a sales department"] sampleLaunched :=
  .cons rfl (.single rfl)

end Sample

end BusinessOs.App.SkillIsolation
