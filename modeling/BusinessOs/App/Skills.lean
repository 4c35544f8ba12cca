/- Source: app/services/skills.py, app/models.py
   digest: The registry of skills: the core skills, skills made from descriptions and manifests, and
     the skills that an agent is handed. -/

import BusinessOs.Core.SkillBridge
import BusinessOs.Lib.Table
import Mathlib.Algebra.Order.BigOperators.Group.List

set_option autoImplicit false
set_option relaxedAutoImplicit false

namespace BusinessOs.App.Skills

open BusinessOs.Lib BusinessOs.Lib.Lowercase BusinessOs.Core.SkillBridge

/-- What `json.loads` returns; a float is given by its bits. -/
inductive PyValue
  | none
  | bool (b : Bool)
  | int (n : ℤ)
  | float (bits : UInt64)
  | str (s : String)
  | list (items : List PyValue)
  | dict (members : List (String × PyValue))

/-- A `dict` with its members in order. -/
abbrev Manifest := List (String × PyValue)

def isNaN (bits : UInt64) : Bool := decide (0x7FF0000000000000 < bits &&& 0x7FFFFFFFFFFFFFFF)

def PyValue.truthy : PyValue → Bool
  | .none => false
  | .bool b => b
  | .int n => n != 0
  | .float bits => bits &&& 0x7FFFFFFFFFFFFFFF != 0
  | .str s => s != ""
  | .list items => !items.isEmpty
  | .dict members => !members.isEmpty

/-- `manifest.get(key, default)`. -/
def Manifest.get (manifest : Manifest) (key : String) (default : PyValue) : PyValue :=
  (manifest.lookup key).getD default

def Manifest.set (manifest : Manifest) (key : String) (value : PyValue) : Manifest :=
  if manifest.any fun m => m.1 == key then
    manifest.map fun m => if m.1 == key then (key, value) else m
  else manifest ++ [(key, value)]

/-- `{**manifest, **other}`. -/
def Manifest.merge (manifest other : Manifest) : Manifest :=
  other.foldl (fun merged m => Manifest.set merged m.1 m.2) manifest

inductive SkillScope
  | company | department | agent
  deriving DecidableEq

/-- `SkillScope(value)`. -/
def SkillScope.ofValue : PyValue → Option SkillScope
  | .str "company" => some .company
  | .str "department" => some .department
  | .str "agent" => some .agent
  | _ => none

inductive SkillStatus
  | active | disabled
  deriving DecidableEq

structure Skill where
  id : String
  name : String
  slug : String
  version : String := "1.0.0"
  description : String
  scope : SkillScope
  departmentId : Option String
  agentId : Option String
  manifest : Manifest
  status : SkillStatus := .active

structure AgentSkillAssignment where
  agentId : String
  skillId : String
  deriving DecidableEq

/-- The columns of an agent that the registry and the factory read. -/
structure AgentInstance where
  id : String
  departmentId : Option String
  role : String
  deriving DecidableEq

/-- The tables, each in the order of insertion; of the departments only their ids. -/
structure Registry where
  skills : List Skill
  assignments : List AgentSkillAssignment
  agents : List AgentInstance
  departments : List String

def Registry.empty : Registry := ⟨[], [], [], []⟩

/-- The ids that the tables hold, as keys or as references. -/
def Registry.mentioned (s : Registry) : List String :=
  s.skills.map Skill.id ++ s.skills.filterMap Skill.departmentId ++
    s.skills.filterMap Skill.agentId ++ s.agents.map AgentInstance.id ++ s.departments

/-- What the services call: the case tables of Python and of the bridge, `to_uppercase` of one
character there, SQLite's text of a float, and `new_id`, which no id in the tables equals. -/
structure Surroundings where
  python : CaseTable
  bridge : CaseTable
  upper : Char → List Char
  realText : UInt64 → String
  newId : List String → String
  newId_new : ∀ used, newId used ∉ used

structure CoreSkill where
  slug : String
  name : String
  description : String
  tags : List String
  toolPermissions : List String
  approvalPolicy : Option String
  deriving DecidableEq

def coreSkills : List CoreSkill :=
  [⟨"market_research", "Market Research",
      "Scan markets, competitors, customer segments, and trend signals.",
      ["research", "strategy", "intelligence"],
      ["web_research", "rag_search", "competitive_analysis"], none⟩,
    ⟨"lead_generation", "Lead Generation",
      "Find and qualify prospect accounts and contacts.",
      ["sales", "prospecting", "crm"], ["apollo", "hunter", "crm"], none⟩,
    ⟨"cold_email_outreach", "Cold Email Outreach",
      "Draft compliant prospecting emails and follow-up sequences.",
      ["sales", "outreach", "email"],
      ["email_draft"], some "all_outbound_requires_human_approval"⟩,
    ⟨"pipeline_tracking", "Pipeline Tracking",
      "Track stages, blockers, revenue signals, and next actions in the CRM.",
      ["sales", "crm", "analytics"], ["crm", "analytics"], none⟩,
    ⟨"content_strategy", "Content Strategy",
      "Plan channel-specific calendars, angles, campaigns, and messaging pillars.",
      ["content", "marketing", "strategy"], ["calendar", "analytics"], none⟩,
    ⟨"content_drafting", "Content Drafting",
      "Write posts, articles, threads, ads, scripts, newsletters, and landing copy.",
      ["content", "copywriting", "marketing"],
      ["document_generation"], some "publishing_requires_human_approval"⟩,
    ⟨"social_scheduling", "Social Scheduling",
      "Prepare social posts for LinkedIn, X, Instagram, Facebook, and blogs.",
      ["content", "publishing", "social"],
      ["social_draft", "calendar"], some "publishing_requires_human_approval"⟩,
    ⟨"youtube_scriptwriting", "YouTube Scriptwriting",
      "Create hooks, outlines, scripts, descriptions, chapters, and thumbnail briefs.",
      ["content", "youtube", "video"], ["document_generation", "analytics"], none⟩,
    ⟨"newsletter_production", "Newsletter Production",
      "Draft subject lines, newsletter issues, segments, and email sequences.",
      ["content", "email", "newsletter"],
      ["email_draft"], some "all_outbound_requires_human_approval"⟩,
    ⟨"crm_management", "CRM Management",
      "Update accounts, contacts, deal stages, notes, and follow-up tasks.",
      ["sales", "ops", "crm"], ["crm"], none⟩,
    ⟨"analytics_reporting", "Analytics Reporting",
      "Analyze performance data and produce daily, weekly, and monthly reports.",
      ["analytics", "reporting", "ops"], ["analytics", "rag_search"], none⟩,
    ⟨"customer_success", "Customer Success",
      "Track client health, follow-ups, satisfaction signals, and renewals.",
      ["success", "client", "retention"],
      ["crm", "email_draft", "calendar"], some "client_messages_require_human_approval"⟩,
    ⟨"finance_reporting", "Finance Reporting",
      "Monitor revenue, costs, invoices, collections, and financial anomalies.",
      ["finance", "reporting", "risk"], ["stripe", "accounting"], none⟩,
    ⟨"compliance_review", "Compliance Review",
      "Review data handling, GDPR risk, contracts, claims, and approvals.",
      ["legal", "compliance", "risk"], ["policy_check", "audit_log"], none⟩,
    ⟨"approval_routing", "Approval Routing",
      "Route outbound, financial, contract, and destructive actions to humans.",
      ["security", "approval", "governance"], ["approval_queue", "audit_log"], none⟩,
    ⟨"prompt_injection_defense", "Prompt Injection Defense",
      "Detect untrusted instructions in web pages, emails, and documents.",
      ["security", "llm", "guardrails"], ["security_event"], none⟩]

def texts (items : List String) : PyValue := .list (items.map .str)

def CoreSkill.manifest (core : CoreSkill) : Manifest :=
  [("slug", .str core.slug), ("name", .str core.name), ("description", .str core.description),
    ("tags", texts core.tags), ("tool_permissions", texts core.toolPermissions)] ++
    (core.approvalPolicy.map fun policy => ("approval_policy", .str policy)).toList

section Slug

/-- `re.sub(r"[^a-z0-9]+", "_", text)`. -/
def substitute : List Char → List Char
  | [] => []
  | c :: cs =>
    if isSlugChar c then c :: substitute cs
    else '_' :: substitute (cs.dropWhile fun d => !isSlugChar d)
  termination_by text => text.length
  decreasing_by
    · exact Nat.lt_succ_self _
    · exact Nat.lt_succ_of_le (List.dropWhile_suffix _).length_le

def slugify (table : CaseTable) (value : String) : String :=
  let slug := trimMatches (fun c => c == '_') (substitute (toLowercase table value).toList)
  let capped := slug.take 80
  if capped.isEmpty then "custom_skill" else String.ofList capped

/-- `str.title`, on the characters of a slug; the flag says that a letter came before. -/
def title : Bool → List Char → List Char
  | _, [] => []
  | cased, c :: cs => (if cased then c else c.toUpper) :: title c.isAlpha cs

def titleOfSlug (slug : String) : String :=
  String.ofList (title false (slug.toList.map fun c => if c == '_' then ' ' else c))

theorem substitute_eq (text : List Char) : substitute text = separated false text := by
  fun_induction substitute text with
  | case1 => rfl
  | case2 c cs keep ih => rw [separated, if_pos keep, ih]
  | case3 c cs skip ih =>
    rw [separated, if_neg skip, if_neg Bool.false_ne_true, ih, ← separated_true]

/-- The two languages make the same slug of a text. -/
theorem slugify_eq (table : CaseTable) (value : String) :
    slugify table value = Core.SkillBridge.slugify table value := by
  unfold slugify Core.SkillBridge.slugify
  rw [substitute_eq]

end Slug

section Services

variable (env : Surroundings)

/-- What the driver binds for a text column of SQLite; the inner `none` is `NULL`, the outer one an
exception. -/
def columnText : PyValue → Option (Option String)
  | .none => some none
  | .bool b => some (some (if b then "1" else "0"))
  | .int n => if -2 ^ 63 ≤ n ∧ n < 2 ^ 63 then some (some (toString n)) else none
  | .float bits => some (if isNaN bits then none else some (env.realText bits))
  | .str s => some (some s)
  | .list _ => none
  | .dict _ => none

/-- A column that may not be `NULL`. -/
def requiredText (value : PyValue) : Option String := (columnText env value).join

/-- `column == value` in a query: `IS NULL` for `None`, and otherwise false of a bound `NULL`. -/
def columnEquals (value : PyValue) (bound column : Option String) : Bool :=
  match value with
  | .none => column.isNone
  | _ => bound.isSome && column == bound

def isCore (core : CoreSkill) (skill : Skill) : Bool :=
  skill.slug == core.slug && skill.scope == .company && skill.departmentId.isNone &&
    skill.agentId.isNone

def coreRow (s : Registry) (core : CoreSkill) : Skill where
  id := env.newId s.mentioned
  name := core.name
  slug := core.slug
  description := core.description
  scope := .company
  departmentId := none
  agentId := none
  manifest := core.manifest

/-- One turn of the loop of `seed_core_skills`. -/
def seedOne (s : Registry) (core : CoreSkill) : Registry :=
  if s.skills.any (isCore core) then s
  else { s with skills := s.skills ++ [coreRow env s core] }

def seedCoreSkills (s : Registry) : Registry := coreSkills.foldl (seedOne env) s

/-- The arguments of `create_from_description`. -/
structure Creation where
  description : String
  name : Option String := none
  scope : SkillScope := .company
  departmentId : Option String := none
  agentId : Option String := none
  deriving DecidableEq

def Creation.analysis (c : Creation) : SkillAnalysis :=
  analyzeSkillDescription env.bridge env.upper c.description c.name

def createdRow (s : Registry) (c : Creation) : Skill :=
  let analysis := c.analysis env
  { id := env.newId s.mentioned
    name := analysis.skillName
    slug := analysis.slug
    description := c.description
    scope := c.scope
    departmentId := c.departmentId
    agentId := c.agentId
    manifest :=
      [("slug", .str analysis.slug), ("name", .str analysis.skillName),
        ("description", .str c.description), ("tags", texts analysis.tags),
        ("tool_permissions", texts analysis.tools),
        ("approval_policy", .str analysis.approvalPolicy),
        ("runtime_contract", .dict
          [("input", .str
              "Plain-language task, memory context, allowed tools, and trust level."),
            ("output", .str
              "Structured result with proposed actions, citations, risks, and next run.")]),
        ("created_from_plain_language", .bool true)] }

def createFromDescription (s : Registry) (c : Creation) : Registry :=
  { s with skills := s.skills ++ [createdRow env s c] }

/-- `manifest.get("slug") or manifest.get("name") or path.stem`. -/
def slugSource (manifest : Manifest) (stem : String) : PyValue :=
  let slug := manifest.get "slug" .none
  let name := manifest.get "name" .none
  if slug.truthy then slug else if name.truthy then name else .str stem

/-- What identifies a skill. -/
structure SkillKey where
  slug : String
  departmentId : Option String
  agentId : Option String
  deriving DecidableEq

def Skill.key (skill : Skill) : SkillKey := ⟨skill.slug, skill.departmentId, skill.agentId⟩

/-- The key that a manifest is registered under; `slugify` raises unless it is given a string. -/
def manifestKey (stem : String) (manifest : Manifest) : Option SkillKey :=
  match slugSource manifest stem, columnText env (manifest.get "department_id" .none),
    columnText env (manifest.get "agent_id" .none) with
  | .str source, some departmentId, some agentId =>
    some ⟨slugify env.python source, departmentId, agentId⟩
  | _, _, _ => none

/-- The query of `register_manifest_file`. -/
def registered (manifest : Manifest) (key : SkillKey) (skill : Skill) : Bool :=
  skill.slug == key.slug &&
    columnEquals (manifest.get "department_id" .none) key.departmentId skill.departmentId &&
    columnEquals (manifest.get "agent_id" .none) key.agentId skill.agentId

/-- The columns that an update writes. -/
def update (manifest : Manifest) (key : SkillKey) (existing : Skill) : Option (Skill → Skill) := do
  let name ← requiredText env (manifest.get "name" (.str existing.name))
  let description ← requiredText env (manifest.get "description" (.str existing.description))
  let version ← requiredText env (manifest.get "version" (.str existing.version))
  return fun row => { row with
    name, description, version
    manifest := (Manifest.merge existing.manifest manifest).set "slug" (.str key.slug) }

def registeredRow (s : Registry) (manifest : Manifest) (key : SkillKey) : Option Skill := do
  let name ← requiredText env (manifest.get "name" (.str (titleOfSlug key.slug)))
  let version ← requiredText env (manifest.get "version" (.str "1.0.0"))
  let description ← requiredText env (manifest.get "description" (.str ""))
  let scope ← SkillScope.ofValue (manifest.get "scope" (.str "company"))
  return {
    id := env.newId s.mentioned
    name, version, description, scope
    slug := key.slug
    departmentId := key.departmentId
    agentId := key.agentId
    manifest := manifest.set "slug" (.str key.slug) }

/-- `register_manifest_file`, on what the file named `stem` holds; `none` is an exception, which
leaves the tables as they were. -/
def registerManifestFile (s : Registry) (stem : String) (loaded : PyValue) : Option Registry :=
  match loaded with
  | .dict manifest =>
    (manifestKey env stem manifest).bind fun key =>
      match s.skills.find? (registered manifest key) with
      | some existing => (update env manifest key existing).map fun write =>
        { s with skills := Table.update Skill.id s.skills existing.id write }
      | none => (registeredRow env s manifest key).map fun row =>
        { s with skills := s.skills ++ [row] }
  | _ => none

def isRelevant (role departmentType : String) (skill : Skill) : Bool :=
  skill.status == .active &&
    (resolveSkillSlugs env.bridge role departmentType).contains skill.slug

/-- One turn of the loop of `assign_relevant_skills`. -/
def assignOne (agent : AgentInstance) (s : Registry) (skill : Skill) : Registry :=
  if s.assignments.contains ⟨agent.id, skill.id⟩ then s
  else { s with assignments := s.assignments ++ [⟨agent.id, skill.id⟩] }

def assignRelevantSkills (agent : AgentInstance) (departmentType : String) (s : Registry) :
    Registry :=
  let seeded := seedCoreSkills env s
  (seeded.skills.filter (isRelevant env agent.role departmentType)).foldl (assignOne agent) seeded

/-- The calls that write skills only. -/
inductive SkillCall
  | seed
  | create (c : Creation)
  | register (stem : String) (loaded : PyValue)

def performSkillCall (s : Registry) : SkillCall → Option Registry
  | .seed => some (seedCoreSkills env s)
  | .create c => some (createFromDescription env s c)
  | .register stem loaded => registerManifestFile env s stem loaded

end Services

section Register

variable {env : Surroundings} {s t : Registry} {manifest : Manifest} {key : SkillKey}
  {stem : String} {loaded : PyValue}

/-- The columns that no update of a manifest writes. -/
structure SameGrant (a b : Skill) : Prop where
  id : b.id = a.id
  key : b.key = a.key
  scope : b.scope = a.scope
  status : b.status = a.status

theorem SameGrant.symm {a b : Skill} (same : SameGrant a b) : SameGrant b a :=
  ⟨same.id.symm, same.key.symm, same.scope.symm, same.status.symm⟩

end Register

section Sample

/-- A string that is longer than all the given ones together. -/
def longer (used : List String) : String :=
  String.ofList (List.replicate ((used.map String.length).sum + 1) 'a')

theorem longer_new (used : List String) : longer used ∉ used := by
  intro member
  have short : (longer used).length ≤ (used.map String.length).sum :=
    List.le_sum_of_mem (List.mem_map_of_mem member)
  rw [longer, String.length_ofList, List.length_replicate] at short
  omega

def sampleSurroundings : Surroundings where
  python := plainTable
  bridge := plainTable
  upper c := [c.toUpper]
  realText _ := "0.0"
  newId := longer
  newId_new := longer_new

end Sample

end BusinessOs.App.Skills
