/- Source: app/services/departments.py
   digest: The agents of the company and of its departments, each handed its skills when it is
     spawned. -/

import BusinessOs.App.Skills

set_option autoImplicit false
set_option relaxedAutoImplicit false

namespace BusinessOs.App.DepartmentFactory

open BusinessOs.Lib.Lowercase BusinessOs.App.Skills

/-- The roles of `COMPANY_AGENTS`. -/
def companyAgents : List String :=
  ["master_orchestrator", "ceo_assistant", "strategy_agent", "intelligence_agent", "cfo_agent",
    "legal_compliance_agent", "security_agent", "idea_engine"]

/-- The roles of `STANDARD_DEPARTMENT_AGENTS`. -/
def standardDepartmentAgents : List String :=
  ["department_ceo", "sales_outreach_agent", "content_creator_agent", "researcher_analyst_agent",
    "operations_agent", "customer_success_agent"]

/-- The roles of `SPECIALIST_AGENTS`. -/
def specialistAgents : String → List String
  | "content" => ["video_script_agent", "social_media_scheduler", "newsletter_agent"]
  | "sales" => ["cold_email_agent", "crm_agent", "pipeline_tracker"]
  | "finance" => ["collections_agent"]
  | "intelligence" => ["competitor_monitor"]
  | _ => []

def agentSpecsFor (departmentType : String) : List String :=
  standardDepartmentAgents ++ specialistAgents departmentType

section Factory

variable (env : Surroundings)

def inferDepartmentType (description : String) : String :=
  let text := toLowercase env.python description
  if ["youtube", "content", "newsletter", "blog", "social"].any (contains text) then "content"
  else if ["sales", "outreach", "crm", "lead", "pipeline"].any (contains text) then "sales"
  else if ["finance", "invoice", "collections", "revenue", "cfo"].any (contains text) then
    "finance"
  else if ["intel", "market", "competitor", "research", "trends"].any (contains text) then
    "intelligence"
  else if ["legal", "compliance", "gdpr", "contracts"].any (contains text) then "compliance"
  else "general"

def newAgent (s : Registry) (departmentId : Option String) (role : String) : AgentInstance :=
  ⟨env.newId s.mentioned, departmentId, role⟩

/-- Insert an agent and hand it its skills. -/
def spawnAgent (departmentId : Option String) (departmentType : String) (s : Registry)
    (role : String) : Registry :=
  let agent := newAgent env s departmentId role
  assignRelevantSkills env agent departmentType { s with agents := s.agents ++ [agent] }

def hasCompanyAgent (s : Registry) (role : String) : Bool :=
  s.agents.any fun agent => agent.departmentId.isNone && agent.role == role

/-- One turn of the loop of `ensure_company_layer`. -/
def companyTurn (s : Registry) (role : String) : Registry :=
  if hasCompanyAgent s role then s else spawnAgent env none "company" s role

def ensureCompanyLayer (s : Registry) : Registry :=
  companyAgents.foldl (companyTurn env) (seedCoreSkills env s)

def launchFromDescription (s : Registry) (description : String) : Registry :=
  let company := ensureCompanyLayer env s
  let departmentType := inferDepartmentType env description
  let departmentId := env.newId company.mentioned
  (agentSpecsFor departmentType).foldl (spawnAgent env (some departmentId) departmentType)
    { company with departments := company.departments ++ [departmentId] }

end Factory

end BusinessOs.App.DepartmentFactory
