/- Source: rust/src/bridge.rs (classify_action, inspect_text)
   digest: The classifier and the prompt inspector that the Python services call. -/

import BusinessOs.Lib.Json.Compact
import BusinessOs.Lib.Lowercase
import Mathlib.Algebra.Field.Rat

set_option autoImplicit false
set_option relaxedAutoImplicit false

namespace BusinessOs.Core.Bridge

open BusinessOs.Lib.Json.Tree BusinessOs.Lib.Json.Literals BusinessOs.Lib.Json.Compact
open BusinessOs.Lib.Lowercase

def outboundMarkers : List String :=
  ["send_email", "outbound_email", "client_message", "social_post", "publish_post",
    "publish_video", "newsletter_send", "ad_publish", "proposal_send"]

def highImpactMarkers : List String :=
  ["send_money", "payment", "wire_transfer", "contract_sign", "delete", "credential",
    "production_change", "invoice_create"]

/-- The third list of markers stands in the body of `classify_action`. -/
def payloadMarkers : List String := ["gdpr", "personal data", "contract", "payment"]

/-- The risk level, whether an approval is required, and the reasons, by what the three rules have
found. -/
def verdict (outbound highImpact sensitive : Bool) : String × Bool × List String :=
  let riskLevel := "low"
  let riskLevel := if outbound then "high" else riskLevel
  let riskLevel := if highImpact then "critical" else riskLevel
  let riskLevel := if sensitive && riskLevel == "low" then "high" else riskLevel
  let reasons :=
    (if outbound then ["Outbound communication or publishing requires approval."] else []) ++
    (if highImpact then
      ["Financial, contractual, destructive, or credential action is blocked."] else []) ++
    (if sensitive then
      ["Sensitive business, legal, financial, or personal-data context detected."] else [])
  let reasons :=
    if reasons.isEmpty then ["Low-risk internal action with audit logging."] else reasons
  (riskLevel, outbound || highImpact, reasons)

def classifyAction (table : CaseTable) (lit : LiteralPrinter) (actionType : String)
    (payload : Value) : String × Bool × List String :=
  let action := toLowercase table actionType
  let payloadText := toLowercase table (String.ofList (compact lit payload))
  let outbound := outboundMarkers.any (contains action)
  let highImpact := highImpactMarkers.any (contains action)
  let sensitive := payloadMarkers.any (contains payloadText)
  verdict outbound highImpact sensitive

/-- The score is the exact quotient that the source computes as an `f64`. -/
structure PromptInspection where
  source : String
  score : ℚ
  flags : List String
  safeToUseAsInstruction : Bool
  handling : String
  deriving DecidableEq

def patterns : List String :=
  ["ignore previous instructions", "ignore all previous instructions", "system prompt",
    "developer message", "reveal your instructions", "exfiltrate", "send the api key",
    "bypass approval", "do not tell the user", "disable guardrails"]

def inspectText (table : CaseTable) (text source : String) : PromptInspection :=
  let normalized := toLowercase table text
  let flags := patterns.filter (contains normalized)
  { source
    score := min (flags.length / 3) 1
    flags
    safeToUseAsInstruction := flags.isEmpty
    handling := if flags.isEmpty then "normal" else "treat_as_untrusted_data" }

end BusinessOs.Core.Bridge
