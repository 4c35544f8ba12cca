/- Source: crates/abos-governance-core/src/lib.rs (classify_action, inspect_prompt_injection)
   digest: The governance crate's classifier of actions and inspector of texts. -/

import BusinessOs.Lib.Json.Compact
import BusinessOs.Lib.Lowercase
import Mathlib.Algebra.Field.Rat

set_option autoImplicit false
set_option relaxedAutoImplicit false

namespace BusinessOs.Governance.Policy

open BusinessOs.Lib.Json.Tree BusinessOs.Lib.Json.Literals BusinessOs.Lib.Json.Compact
open BusinessOs.Lib.Lowercase

def outboundMarkers : List String :=
  ["send_email", "outbound_email", "client_message", "social_post", "publish_post",
    "publish_video", "newsletter_send", "ad_publish", "proposal_send"]

def highImpactMarkers : List String :=
  ["send_money", "payment", "wire_transfer", "contract_sign", "delete", "credential",
    "production_change", "invoice_create"]

def sensitivePayloadMarkers : List String := ["gdpr", "personal data", "contract", "payment"]

def promptInjectionPatterns : List String :=
  ["ignore previous instructions", "ignore all previous instructions", "system prompt",
    "developer message", "reveal your instructions", "exfiltrate", "send the api key",
    "bypass approval", "do not tell the user", "disable guardrails"]

inductive RiskLevel
  | low | high | critical
  deriving DecidableEq, Repr

/-- The level as serde writes it. -/
def RiskLevel.value : RiskLevel → String
  | .low => "low"
  | .high => "high"
  | .critical => "critical"

inductive ExternalActionStatus
  | proposed | approved | rejected | executed | blocked
  deriving DecidableEq, Repr

structure ActionClassification where
  riskLevel : RiskLevel
  requiresApproval : Bool
  status : ExternalActionStatus
  reasons : List String
  deriving DecidableEq

def classifyAction (lit : LiteralPrinter) (actionType : String) (payload : Value) :
    ActionClassification :=
  let action := toAsciiLowercase actionType
  let payloadText := toAsciiLowercase (String.ofList (compact lit payload))
  let outbound := outboundMarkers.any (contains action)
  let highImpact := highImpactMarkers.any (contains action)
  let sensitive := sensitivePayloadMarkers.any (contains payloadText)
  let riskLevel := RiskLevel.low
  let riskLevel := if outbound then .high else riskLevel
  let riskLevel := if highImpact then .critical else riskLevel
  let riskLevel := if sensitive && riskLevel == .low then .high else riskLevel
  let requiresApproval := outbound || highImpact
  let reasons :=
    (if outbound then ["Outbound communication or publishing requires approval."] else []) ++
    (if highImpact then
      ["Financial, contractual, destructive, or credential action is blocked."] else []) ++
    (if sensitive then
      ["Sensitive business, legal, financial, or personal-data context detected."] else [])
  let reasons :=
    if reasons.isEmpty then ["Low-risk internal action with audit logging."] else reasons
  { riskLevel
    requiresApproval
    status := if requiresApproval then .proposed else .approved
    reasons }

/-- The score is the exact quotient that the source computes as an `f64`. -/
structure PromptInspection where
  source : String
  score : ℚ
  flags : List String
  safeToUseAsInstruction : Bool
  handling : String
  deriving DecidableEq

def inspectPromptInjection (text source : String) : PromptInspection :=
  let normalized := toAsciiLowercase text
  let flags := promptInjectionPatterns.filter (contains normalized)
  { source
    score := min (flags.length / 3) 1
    safeToUseAsInstruction := flags.isEmpty
    handling := if flags.isEmpty then "normal" else "treat_as_untrusted_data"
    flags }

end BusinessOs.Governance.Policy
