/- Source: app/services/departments.py (DepartmentFactory.ensure_company_layer),
     app/services/skills.py (SkillRegistry.seed_core_skills, assign_relevant_skills)
   digest: When a call that ensures the company layer repairs what the interrupted calls before it
     have left. -/

import BusinessOs.App.CompanyCommits

set_option autoImplicit false
set_option relaxedAutoImplicit false

namespace BusinessOs.App.CompanyLayer

open BusinessOs.Lib BusinessOs.Lib.Commits BusinessOs.Lib.Execution BusinessOs.App.Skills
open BusinessOs.App.DepartmentFactory BusinessOs.App.SkillIsolation BusinessOs.App.CompanyCommits

/-- A call that completes, or dies behind its first so many commits. -/
inductive Call
  | completes
  | dies (behind : ℕ)

section Calls

variable (env : Surroundings)

/-- The commits that a call makes. -/
def made (s : Registry) : Call → List Commit
  | .completes => ensureCommits env s
  | .dies behind => (ensureCommits env s).take behind

/-- The commits that it would still have made. -/
def unmade (s : Registry) : Call → List Commit
  | .completes => []
  | .dies behind => (ensureCommits env s).drop behind

def Step (s : Registry) (call : Call) (t : Registry) : Prop :=
  replay commit s (made env s call) = t

/-- The call does not die between the commit of an agent and that of its last assignment. -/
def Spared (s : Registry) (call : Call) : Prop :=
  ∀ agent, Commit.agent agent ∈ made env s call →
    ∀ skillId, Commit.assignment ⟨agent.id, skillId⟩ ∉ unmade env s call

/-- The agent is assigned to every active skill for its role. -/
def Served (s : Registry) (agent : AgentInstance) : Prop :=
  ∀ skill ∈ s.skills, isRelevant env agent.role "company" skill = true →
    ⟨agent.id, skill.id⟩ ∈ s.assignments

def AllServed (s : Registry) : Prop := ∀ agent ∈ s.agents, Served env s agent

/-- One agent of the company for each role, one skill of the company for each slug, and one
assignment of each agent to each active core skill for its role. -/
structure Converged (s : Registry) : Prop where
  agents : ∀ role ∈ companyAgents,
    (s.agents.countP fun agent => agent.departmentId.isNone && agent.role == role) = 1
  skills : ∀ core ∈ coreSkills,
    (s.skills.countP fun skill => skill.slug == core.slug && skill.scope == .company) = 1
  assignments : ∀ agent ∈ s.agents, agent.departmentId = none → ∀ skill ∈ s.skills,
    (∃ core ∈ coreSkills, isCore core skill = true) → skill.status = .active →
      skill.slug ∈ Core.SkillBridge.resolveSkillSlugs env.bridge agent.role "company" →
        s.assignments.count ⟨agent.id, skill.id⟩ = 1

end Calls

/-- What the calls leave, wherever they die. -/
structure Layer (s : Registry) : Prop where
  inv : Inv s
  core : ∀ skill ∈ s.skills,
    skill.status = .active ∧ ∃ core ∈ coreSkills, isCore core skill = true
  slugs : (s.skills.map Skill.slug).Nodup
  seeded : s.agents ≠ [] → AllSeeded s
  company : ∀ agent ∈ s.agents, agent.departmentId = none ∧ agent.role ∈ companyAgents
  roles : (s.agents.map AgentInstance.role).Nodup
  assignments : s.assignments.Nodup

section Invariant

variable {env : Surroundings} {s t : Registry} {old : List AgentInstance}

theorem layer_empty : Layer Registry.empty := by
  refine ⟨⟨List.nodup_nil, List.nodup_nil, ?_⟩, ?_, List.nodup_nil, ?_, ?_, List.nodup_nil,
    List.nodup_nil⟩
  · exact fun _ member => absurd member List.not_mem_nil
  · exact fun _ member => absurd member List.not_mem_nil
  · exact fun some_ => absurd rfl some_
  · exact fun _ member => absurd member List.not_mem_nil

theorem core_slug_unique {core other : CoreSkill} (member : core ∈ coreSkills)
    (inside : other ∈ coreSkills) (same : core.slug = other.slug) : core = other := by
  have distinct : (coreSkills.map CoreSkill.slug).Nodup := by decide +kernel
  exact List.inj_on_of_nodup_map distinct member inside same

theorem slug_of_isCore {core : CoreSkill} {skill : Skill} (own : isCore core skill = true) :
    skill.slug = core.slug ∧ skill.scope = .company := by
  simp only [isCore, Bool.and_eq_true, beq_iff_eq] at own
  exact ⟨own.1.1.1, own.1.1.2⟩

theorem hasCompanyAgent_iff {role : String} : hasCompanyAgent s role = true ↔
    ∃ agent ∈ s.agents, agent.departmentId = none ∧ agent.role = role := by
  simp [hasCompanyAgent]

/-- Each commit keeps the layer, given what it finds. -/
theorem Layer.commit {c : Commit} (layer : Layer s) (finds : Finds env old s c) :
    Layer (commit s c) := by
  cases c with
  | skill row =>
    obtain ⟨newId, active, core, member, own, missing⟩ := finds
    have newSlug : row.slug ∉ s.skills.map Skill.slug := by
      intro there
      obtain ⟨skill, inside, same⟩ := List.mem_map.mp there
      obtain ⟨_, other, otherMember, otherOwn⟩ := layer.core skill inside
      have slugs : core.slug = other.slug := by
        rw [← (slug_of_isCore own).1, ← same, (slug_of_isCore otherOwn).1]
      obtain rfl := core_slug_unique member otherMember slugs
      have found : s.skills.any (isCore core) = true :=
        List.any_eq_true.mpr ⟨skill, inside, otherOwn⟩
      rw [missing] at found
      cases found
    refine ⟨layer.inv.insertSkill row newId, ?_, Table.nodup_append layer.slugs newSlug, ?_,
      layer.company, layer.roles, layer.assignments⟩
    · intro skill there
      rcases List.mem_append.mp there with before | last
      · exact layer.core skill before
      · rw [List.mem_singleton.mp last]
        exact ⟨active, core, member, own⟩
    · intro some_ other inside
      show (s.skills ++ [row]).any (isCore other) = true
      rw [List.any_append, layer.seeded some_ other inside, Bool.true_or]
  | agent row =>
    obtain ⟨newId, department, member, missing, all⟩ := finds
    have newRole : row.role ∉ s.agents.map AgentInstance.role := by
      intro there
      obtain ⟨agent, inside, same⟩ := List.mem_map.mp there
      have found := hasCompanyAgent_iff.mpr ⟨agent, inside, (layer.company agent inside).1, same⟩
      rw [missing] at found
      cases found
    refine ⟨layer.inv.insertAgent row newId, layer.core, layer.slugs, fun _ => all, ?_,
      Table.nodup_append layer.roles newRole, layer.assignments⟩
    intro agent there
    rcases List.mem_append.mp there with before | last
    · exact layer.company agent before
    · rw [List.mem_singleton.mp last]
      exact ⟨department, member⟩
  | assignment row =>
    obtain ⟨absent, agent, there, _, own, skill, inside, same, _⟩ := finds
    have pair : row = ⟨agent.id, skill.id⟩ := by
      rw [own, same]
    refine ⟨?_, layer.core, layer.slugs, layer.seeded, layer.company, layer.roles, ?_⟩
    · rw [pair]
      exact layer.inv.insertAssignment there inside
    · show (s.assignments ++ [row]).Nodup
      rw [List.nodup_append_comm, List.singleton_append, List.nodup_cons]
      exact ⟨absent, layer.assignments⟩
  | audit action => exact layer

theorem layer_replay {commits : List Commit} (layer : Layer s)
    (meets : Meets commit (Finds env old) s commits) : Layer (replay commit s commits) :=
  meets.invariant (fun _ _ held finds => held.commit finds) layer

end Invariant

/-! A call that is cut short. -/

section Cut

variable {env : Surroundings} {s t : Registry} {old : List AgentInstance}

/-- Where all core skills are there no skill is added. -/
theorem skills_frozen {commits : List Commit} (all : AllSeeded s)
    (meets : Meets commit (Finds env old) s commits) :
    (replay commit s commits).skills = s.skills := by
  have keep : ∀ r c, r.skills = s.skills → Finds env old r c →
      (CompanyCommits.commit r c).skills = s.skills := by
    intro r c same finds
    cases c with
    | skill row =>
      obtain ⟨_, _, core, member, _, missing⟩ := finds
      rw [same, all core member] at missing
      cases missing
    | agent row => exact same
    | assignment row => exact same
    | audit action => exact same
  exact meets.invariant (I := fun r => r.skills = s.skills) keep rfl

/-- The agent that an assignment is for. -/
theorem owner_eq (layer : Layer t) {agent other : AgentInstance} (there : agent ∈ t.agents)
    (inside : other ∈ t.agents) (same : agent.id = other.id) : agent = other :=
  List.inj_on_of_nodup_map layer.inv.agentIds there inside same

theorem turns_serve (all : AllSeeded s) (role : String)
    (served : ∀ agent ∈ s.agents, agent ∈ old ∨ Served env s agent) :
    ∀ agent ∈ (companyTurn env s role).agents,
      agent ∈ old ∨ Served env (companyTurn env s role) agent := by
  rcases companyTurn_cases env all role with ⟨_, same⟩ | ⟨_, spawned⟩
  · rw [same]
    exact served
  · intro agent there
    rw [spawned.agents] at there
    rcases List.mem_append.mp there with before | last
    · refine (served agent before).imp_right fun kept skill inside relevant => ?_
      rw [spawned.skills] at inside
      exact (spawned.assignments _).mpr (.inl (kept skill inside relevant))
    · right
      obtain rfl := List.mem_singleton.mp last
      intro skill inside relevant
      rw [spawned.skills] at inside
      exact (spawned.assignments _).mpr (.inr ⟨skill, inside, relevant, rfl⟩)

/-- A call that completes serves every agent that it adds. -/
theorem ensure_serves (env : Surroundings) (s : Registry) :
    ∀ agent ∈ (ensureCompanyLayer env s).agents,
      agent ∈ s.agents ∨ Served env (ensureCompanyLayer env s) agent := by
  have start : AllSeeded (seedCoreSkills env s) ∧ ∀ agent ∈ (seedCoreSkills env s).agents,
      agent ∈ s.agents ∨ Served env (seedCoreSkills env s) agent := by
    refine ⟨allSeeded_seed s, fun agent there => .inl ?_⟩
    rwa [(seeded env s).agents] at there
  have turns : AllSeeded (ensureCompanyLayer env s) ∧ ∀ agent ∈ (ensureCompanyLayer env s).agents,
      agent ∈ s.agents ∨ Served env (ensureCompanyLayer env s) agent := by
    refine List.foldlRecOn (motive := fun t => AllSeeded t ∧
      ∀ agent ∈ t.agents, agent ∈ s.agents ∨ Served env t agent) companyAgents (companyTurn env)
      start ?_
    rintro t ⟨all, served⟩ role _
    exact ⟨companyTurn_seeded all role, turns_serve all role served⟩
  exact turns.2

theorem made_unmade (env : Surroundings) (s : Registry) (call : Call) :
    made env s call ++ unmade env s call = ensureCommits env s := by
  cases call with
  | completes => exact List.append_nil _
  | dies behind => exact List.take_append_drop behind _

theorem meets_call (env : Surroundings) (s : Registry) (call : Call) :
    Meets commit (Finds env s.agents) s (made env s call) ∧
      Meets commit (Finds env s.agents) (replay commit s (made env s call))
        (unmade env s call) := by
  have whole := meets_ensure env s
  rw [← made_unmade env s call] at whole
  exact whole.split

theorem layer_step {call : Call} (layer : Layer s) (step : Step env s call t) : Layer t := by
  obtain rfl : replay commit s (made env s call) = t := step
  exact layer_replay layer (meets_call env s call).1

theorem made_done (env : Surroundings) (s : Registry) (call : Call) :
    replay commit (replay commit s (made env s call)) (unmade env s call) =
      ensureCompanyLayer env s := by
  rw [← replay_append, made_unmade, replay_ensure]

/-- A call assigns nothing to an agent that was there before. -/
theorem not_assigned_old {commits : List Commit} (layer : Layer s)
    (meets : Meets commit (Finds env s.agents) s commits) {agent : AgentInstance}
    (there : agent ∈ s.agents) (skillId : String) :
    Commit.assignment ⟨agent.id, skillId⟩ ∉ commits := by
  intro written
  obtain ⟨before, after, rfl, _, owner, present, new, same, _⟩ := meets.of_mem written
  have start := layer_replay layer meets.split.1
  have stays : agent ∈ (replay commit s before).agents := mem_agents_replay.mpr (.inl there)
  obtain rfl := owner_eq start present stays same
  exact new there

/-- What the call still has to assign to an agent of the layer is a skill that the agent lacks. -/
theorem lacks_unmade {commits : List Commit} (layer : Layer t)
    (meets : Meets commit (Finds env old) t commits) {agent : AgentInstance}
    (there : agent ∈ t.agents) {skillId : String}
    (left : Commit.assignment ⟨agent.id, skillId⟩ ∈ commits) : ¬ Served env t agent := by
  intro served
  obtain ⟨before, after, rfl, absent, owner, present, _, same, skill, inside, own, relevant⟩ :=
    meets.of_mem left
  have start := meets.split.1
  have stays : agent ∈ (replay commit t before).agents := mem_agents_replay.mpr (.inl there)
  obtain rfl := owner_eq (layer_replay layer start) present stays same
  have all := layer.seeded (List.ne_nil_of_mem there)
  rw [skills_frozen all start] at inside
  obtain rfl : skill.id = skillId := own
  exact absent (mem_assignments_replay.mpr (.inl (served skill inside relevant)))

/-- After a call all agents are served exactly when they were before, and the call is spared. -/
theorem allServed_step {call : Call} (layer : Layer s) (step : Step env s call t) :
    AllServed env t ↔ AllServed env s ∧ Spared env s call := by
  obtain ⟨done, left⟩ := meets_call env s call
  have last := made_done env s call
  obtain rfl : replay commit s (made env s call) = t := step
  have middle : Layer (replay commit s (made env s call)) := layer_replay layer done
  constructor
  · intro served
    refine ⟨fun agent there skill inside relevant => ?_, fun agent added skillId pending => ?_⟩
    · have now := served agent (mem_agents_replay.mpr (.inl there)) skill
        (mem_skills_replay.mpr (.inl inside)) relevant
      exact (mem_assignments_replay.mp now).resolve_right
        (not_assigned_old layer done there skill.id)
    · have there : agent ∈ (replay commit s (made env s call)).agents :=
        mem_agents_replay.mpr (.inr added)
      exact lacks_unmade middle left there pending (served agent there)
  · rintro ⟨served, spared⟩ agent there skill inside relevant
    have old : agent ∈ s.agents →
        ⟨agent.id, skill.id⟩ ∈ (replay commit s (made env s call)).assignments := by
      intro before
      rw [skills_frozen (layer.seeded (List.ne_nil_of_mem before)) done] at inside
      exact mem_assignments_replay.mpr (.inl (served agent before skill inside relevant))
    rcases mem_agents_replay.mp there with before | added
    · exact old before
    · have finally_ := ensure_serves env s agent
      rw [← last] at finally_
      rcases finally_ (mem_agents_replay.mpr (.inl there)) with before | whole
      · exact old before
      · have assigned := whole skill (mem_skills_replay.mpr (.inl inside)) relevant
        exact (mem_assignments_replay.mp assigned).resolve_right (spared agent added skill.id)

end Cut

/-! The layer behind a call that completes. -/

section Complete

variable {env : Surroundings} {s t : Registry} {calls : List Call}

theorem complete_step (env : Surroundings) (s : Registry) :
    Step env s .completes (ensureCompanyLayer env s) := replay_ensure s

theorem layer_ensure (layer : Layer s) : Layer (ensureCompanyLayer env s) :=
  layer_step layer (complete_step env s)

theorem hasCompanyAgent_turns (roles : List String) (inv : Inv s) (role : String) :
    hasCompanyAgent (roles.foldl (companyTurn env) s) role = true ↔
      hasCompanyAgent s role = true ∨ role ∈ roles := by
  induction roles generalizing s with
  | nil => simp
  | cons first roles ih =>
    rw [List.foldl_cons, ih (handed_companyTurn env first inv).inv, hasCompanyAgent_turn inv,
      or_assoc, List.mem_cons]
    exact or_congr_right (or_congr_left eq_comm)

theorem ensure_agents (env : Surroundings) (layer : Layer s) {role : String}
    (member : role ∈ companyAgents) :
    hasCompanyAgent (ensureCompanyLayer env s) role = true :=
  (hasCompanyAgent_turns companyAgents ((seeded env s).inv layer.inv) role).mpr (.inr member)

theorem ensure_seeded (env : Surroundings) (layer : Layer s) :
    AllSeeded (ensureCompanyLayer env s) := by
  have some_ : (ensureCompanyLayer env s).agents ≠ [] := by
    have first : "master_orchestrator" ∈ companyAgents := List.mem_cons_self
    obtain ⟨agent, there, _⟩ := hasCompanyAgent_iff.mp (ensure_agents env layer first)
    exact List.ne_nil_of_mem there
  exact (layer_ensure layer).seeded some_

/-- The layer has converged exactly when every agent is served. -/
theorem converged_iff_allServed (layer : Layer s) :
    Converged env (ensureCompanyLayer env s) ↔ AllServed env (ensureCompanyLayer env s) := by
  have after : Layer (ensureCompanyLayer env s) := layer_ensure layer
  constructor
  · intro converged agent there skill inside relevant
    obtain ⟨active, core⟩ := after.core skill inside
    have one := converged.assignments agent there (after.company agent there).1 skill inside core
      active ?_
    · exact List.count_pos_iff.mp (by omega)
    · exact List.contains_iff_mem.mp (Bool.and_eq_true_iff.mp relevant).2
  · intro served
    refine ⟨?_, ?_, ?_⟩
    · intro role member
      obtain ⟨agent, there, department, own⟩ :=
        hasCompanyAgent_iff.mp (ensure_agents env layer member)
      refine Table.countP_eq_one after.roles there ?_ ?_
      · rw [department, own, beq_self_eq_true]
        rfl
      · intro other inside same
        rw [own]
        exact beq_iff_eq.mp (Bool.and_eq_true_iff.mp same).2
    · intro core member
      obtain ⟨skill, inside, own⟩ := List.any_eq_true.mp (ensure_seeded env layer core member)
      obtain ⟨slug, scope⟩ := slug_of_isCore own
      refine Table.countP_eq_one after.slugs inside ?_ ?_
      · rw [slug, scope, beq_self_eq_true]
        rfl
      · intro other _ same
        rw [slug]
        exact beq_iff_eq.mp (Bool.and_eq_true_iff.mp same).1
    · intro agent there _ skill inside _ active slug
      refine List.count_eq_one_of_mem after.assignments (served agent there skill inside ?_)
      rw [isRelevant, active, List.contains_iff_mem.mpr slug]
      rfl

theorem layer_run (run : Run (Step env) Registry.empty calls s) : Layer s :=
  run.invariant (fun _ _ _ held step => layer_step held step) layer_empty

/-- After one more call that completes the layer has converged exactly when none of the calls before
it died between the commit of an agent and that of its last assignment. -/
theorem company_converges_iff (run : Run (Step env) Registry.empty calls s) :
    Converged env (ensureCompanyLayer env s) ↔
      Run (Guarded (Spared env) (Step env)) Registry.empty calls s := by
  have layer := layer_run run
  have last : AllServed env (ensureCompanyLayer env s) ↔ AllServed env s := by
    rw [allServed_step layer (complete_step env s)]
    refine and_iff_left fun agent _ skillId pending => ?_
    exact absurd pending List.not_mem_nil
  have start : AllServed env Registry.empty := fun _ there => absurd there List.not_mem_nil
  have stepwise : ∀ s call t, Layer s → Step env s call t →
      (AllServed env t ↔ AllServed env s ∧ Spared env s call) :=
    fun _ _ _ held step => allServed_step held step
  rw [converged_iff_allServed layer, last,
    run.exactly_guarded (fun _ _ _ held step => layer_step held step) stepwise layer_empty]
  exact and_iff_right start

end Complete

section Sample

/-- Behind the seeding the first commit of a first call is that of an agent. -/
theorem ensureCommits_empty (env : Surroundings) : ∃ agent rest,
    ensureCommits env Registry.empty =
      seedCommits env Registry.empty ++ Commit.agent agent :: rest := by
  have nobody : (seedCoreSkills env Registry.empty).agents = [] := (seeded env _).agents
  have missing :
      hasCompanyAgent (seedCoreSkills env Registry.empty) "master_orchestrator" = false := by
    rw [hasCompanyAgent, nobody]
    rfl
  have turn : ∃ agent rest, companyTurnCommits env (seedCoreSkills env Registry.empty)
      "master_orchestrator" = Commit.agent agent :: rest := by
    rw [companyTurnCommits, missing]
    exact ⟨_, _, rfl⟩
  obtain ⟨agent, rest, first⟩ := turn
  refine ⟨agent, rest ++ loop commit (companyTurnCommits env) companyAgents.tail
    (replay commit (seedCoreSkills env Registry.empty) (Commit.agent agent :: rest)), ?_⟩
  rw [ensureCommits, andThen, replay_seed, ← List.cons_append, ← first]
  rfl

/-- Every role has a core skill. -/
theorem relevant_skill (env : Surroundings) (role : String) {s : Registry} (layer : Layer s)
    (all : AllSeeded s) : ∃ skill ∈ s.skills, isRelevant env role "company" skill = true := by
  have member : ∃ core ∈ coreSkills, core.slug = "analytics_reporting" := by decide +kernel
  obtain ⟨core, inside, named⟩ := member
  obtain ⟨skill, there, own⟩ := List.any_eq_true.mp (all core inside)
  have slug : skill.slug = "analytics_reporting" := (slug_of_isCore own).1.trans named
  refine ⟨skill, there, ?_⟩
  rw [isRelevant, (layer.core skill there).1, slug]
  simp [Core.SkillBridge.resolveSkillSlugs]

/-- Who dies there leaves an agent without skills. -/
theorem first_agent_unserved (env : Surroundings) {t : Registry}
    (step : Step env Registry.empty (.dies ((seedCommits env Registry.empty).length + 1)) t) :
    ¬ AllServed env t := by
  intro served
  have layer := layer_step layer_empty step
  obtain ⟨agent, rest, shape⟩ := ensureCommits_empty env
  have cut : made env Registry.empty (.dies ((seedCommits env Registry.empty).length + 1)) =
      seedCommits env Registry.empty ++ [Commit.agent agent] := by
    rw [made, shape, ← List.singleton_append, ← List.append_assoc]
    exact List.take_left' (by rw [List.length_append, List.length_singleton])
  have left : replay commit (seedCoreSkills env Registry.empty) [Commit.agent agent] = t := by
    rw [← step, cut, replay_append, replay_seed]
  have there : agent ∈ t.agents := by
    rw [← left]
    exact mem_agents_replay.mpr (.inr (List.mem_singleton_self _))
  obtain ⟨skill, inside, relevant⟩ := relevant_skill env agent.role layer
    (layer.seeded (List.ne_nil_of_mem there))
  have assigned := served agent there skill inside relevant
  rw [← left, mem_assignments_replay, seedCoreSkills_assignments] at assigned
  simp [Registry.empty] at assigned

theorem company_converges_iff_sample :
    Converged sampleSurroundings (ensureCompanyLayer sampleSurroundings
        (ensureCompanyLayer sampleSurroundings Registry.empty)) ↔
      Run (Guarded (Spared sampleSurroundings) (Step sampleSurroundings)) Registry.empty
        [.completes] (ensureCompanyLayer sampleSurroundings Registry.empty) :=
  company_converges_iff (.single (complete_step _ _))

/-- The agent has no skills for good. -/
theorem layer_unrepaired : ¬ ∀ (calls : List Call) (s : Registry),
    Run (Step sampleSurroundings) Registry.empty calls s →
    Converged sampleSurroundings (ensureCompanyLayer sampleSurroundings s) := by
  intro law
  let call := Call.dies ((seedCommits sampleSurroundings Registry.empty).length + 1)
  have step : Step sampleSurroundings Registry.empty call
      (replay commit Registry.empty (made sampleSurroundings Registry.empty call)) := rfl
  have layer := layer_step layer_empty step
  have served := (converged_iff_allServed layer).mp (law [call] _ (.single step))
  have before := (allServed_step layer (complete_step _ _)).mp served
  exact first_agent_unserved sampleSurroundings step before.1

end Sample

end BusinessOs.App.CompanyLayer
