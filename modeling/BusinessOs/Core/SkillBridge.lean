/- Source: rust/src/bridge.rs (analyze_skill_description, resolve_skill_slugs)
   digest: What the bridge makes of the description of a skill, and the skills that it finds for a
     role. -/

import BusinessOs.Lib.Lowercase
import Mathlib.Data.List.DropRight

set_option autoImplicit false
set_option relaxedAutoImplicit false

namespace BusinessOs.Core.SkillBridge

open BusinessOs.Lib.Lowercase

/-- The characters with the property `White_Space`. -/
def isWhitespace (c : Char) : Bool :=
  let n := c.toNat
  (decide (9 ≤ n) && decide (n ≤ 13)) || n == 0x20 || n == 0x85 || n == 0xA0 || n == 0x1680 ||
    (decide (0x2000 ≤ n) && decide (n ≤ 0x200A)) || n == 0x2028 || n == 0x2029 || n == 0x202F ||
    n == 0x205F || n == 0x3000

def splitWhitespace (text : List Char) : List (List Char) :=
  (text.splitOnP isWhitespace).filter fun word => !word.isEmpty

def trimMatches (p : Char → Bool) (text : List Char) : List Char :=
  (text.dropWhile p).rdropWhile p

/-- The words are measured in bytes; `upper` is `to_uppercase` of one character. -/
def titleFromDescription (upper : Char → List Char) (description : String) : String :=
  let words := (((splitWhitespace description.toList).map
    (trimMatches fun c => ".,:;()[]{}".toList.contains c)).filter fun word =>
      decide (2 < (String.ofList word).utf8ByteSize)).take 5
  if words.isEmpty then "Custom Skill"
  else
    " ".intercalate (words.map fun word =>
      match word with
      | [] => ""
      | first :: rest => String.ofList (upper first ++ rest))

def isSlugChar (c : Char) : Bool := c.isLower || c.isDigit

/-- The loop of `slugify`, with its flag `last_was_sep`. -/
def separated : Bool → List Char → List Char
  | _, [] => []
  | lastWasSep, c :: cs =>
    if isSlugChar c then c :: separated false cs
    else if lastWasSep then separated true cs
    else '_' :: separated true cs

section Analysis

variable (table : CaseTable) (upper : Char → List Char)

def slugify (value : String) : String :=
  let slug := separated false (toLowercase table value).toList
  let trimmed := trimMatches (fun c => c == '_') slug
  let capped := trimmed.take 80
  if capped.isEmpty then "custom_skill" else String.ofList capped

def tags : List String :=
  ["sales", "content", "email", "social", "finance", "legal", "security", "research", "analytics",
    "customer", "youtube", "newsletter"]

def inferTags (description : String) : List String :=
  let text := toLowercase table description
  let inferred := tags.filter (contains text)
  if inferred.isEmpty then ["custom"] else inferred

def toolMap : List (String × String) :=
  [("email", "email_draft"), ("social", "social_draft"), ("linkedin", "social_draft"),
    ("twitter", "social_draft"), ("x/", "social_draft"), ("youtube", "document_generation"),
    ("crm", "crm"), ("lead", "apollo"), ("invoice", "stripe"), ("finance", "accounting"),
    ("calendar", "calendar"), ("research", "web_research")]

def inferTools (description : String) : List String :=
  let text := toLowercase table description
  toolMap.foldl
    (fun tools entry =>
      if contains text entry.1 && !tools.contains entry.2 then tools ++ [entry.2] else tools)
    ["memory"]

def inferApprovalPolicy (description : String) : String :=
  let text := toLowercase table description
  if ["send", "publish", "post", "email", "message", "approval", "approve"].any (contains text) then
    "human_approval_required_before_external_action"
  else if ["money", "payment", "contract", "delete"].any (contains text) then
    "human_approval_required_before_high_impact_action"
  else "autonomous_with_audit"

structure SkillAnalysis where
  skillName : String
  slug : String
  tags : List String
  tools : List String
  approvalPolicy : String
  deriving DecidableEq

def analyzeSkillDescription (description : String) (name : Option String) : SkillAnalysis :=
  let skillName := name.getD (titleFromDescription upper description)
  { skillName
    slug := slugify table skillName
    tags := inferTags table description
    tools := inferTools table description
    approvalPolicy := inferApprovalPolicy table description }

/-- The slugs of a role; the source sorts them and drops repeated ones, and its caller asks only
which they are. -/
def resolveSkillSlugs (role departmentType : String) : List String :=
  let roleText := toLowercase table role
  let has := contains roleText
  ["analytics_reporting", "approval_routing", "prompt_injection_defense"] ++
    (if has "ceo" || has "strategy" then
      ["market_research", "analytics_reporting", "compliance_review"] else []) ++
    (if has "sales" || has "outreach" || departmentType == "sales" then
      ["lead_generation", "cold_email_outreach", "crm_management", "pipeline_tracking"] else []) ++
    (if has "content" || has "creator" || departmentType == "content" then
      ["content_strategy", "content_drafting", "social_scheduling"] else []) ++
    (if has "youtube" then ["youtube_scriptwriting"] else []) ++
    (if has "newsletter" then ["newsletter_production"] else []) ++
    (if has "research" || has "analyst" || departmentType == "intelligence" then
      ["market_research", "analytics_reporting"] else []) ++
    (if has "operations" then ["analytics_reporting", "compliance_review"] else []) ++
    (if has "customer" || has "success" then ["customer_success"] else []) ++
    (if has "finance" || departmentType == "finance" then ["finance_reporting"] else []) ++
    (if has "legal" || has "compliance" then ["compliance_review"] else [])

end Analysis

/-- A run of separators counts once. -/
theorem separated_true (text : List Char) :
    separated true text = separated false (text.dropWhile fun c => !isSlugChar c) := by
  induction text with
  | nil => rfl
  | cons c cs ih =>
    cases keep : isSlugChar c with
    | true => simp [separated, keep]
    | false => simp [separated, keep, ih]

end BusinessOs.Core.SkillBridge
