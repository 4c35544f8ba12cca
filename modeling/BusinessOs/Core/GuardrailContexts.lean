/- Source: rust/src/bridge.rs (classify_action, inspect_text)
   digest: What the classifier and the inspector find stays found in every larger context. -/

import BusinessOs.Core.Bridge
import Mathlib.Algebra.Order.Field.Basic
import Mathlib.Data.Rat.Cast.Order

set_option autoImplicit false
set_option relaxedAutoImplicit false

namespace BusinessOs.Core.GuardrailContexts

open BusinessOs.Lib.Json.Tree BusinessOs.Lib.Json.Literals BusinessOs.Lib.Json.Compact
open BusinessOs.Lib.Lowercase BusinessOs.Core.Bridge

def riskRank (level : String) : ℕ :=
  if level = "critical" then 2 else if level = "high" then 1 else 0

/-- The reason that is given when there is no other one. -/
def defaultReason : String := "Low-risk internal action with audit logging."

/-- A verdict is at least as strict as another one. -/
structure AtLeast (strict lax : String × Bool × List String) : Prop where
  risk : riskRank lax.1 ≤ riskRank strict.1
  approval : lax.2.1 = true → strict.2.1 = true
  reasons : ∀ reason ∈ lax.2.2, reason ≠ defaultReason → reason ∈ strict.2.2

/-- A verdict gets no laxer when a rule finds something more. -/
theorem verdict_mono {outbound outbound' highImpact highImpact' sensitive sensitive' : Bool}
    (o : outbound ≤ outbound') (h : highImpact ≤ highImpact') (s : sensitive ≤ sensitive') :
    AtLeast (verdict outbound' highImpact' sensitive') (verdict outbound highImpact sensitive) := by
  have all : ∀ outbound outbound' highImpact highImpact' sensitive sensitive' : Bool,
      outbound ≤ outbound' → highImpact ≤ highImpact' → sensitive ≤ sensitive' →
      riskRank (verdict outbound highImpact sensitive).1 ≤
          riskRank (verdict outbound' highImpact' sensitive').1 ∧
        ((verdict outbound highImpact sensitive).2.1 = true →
          (verdict outbound' highImpact' sensitive').2.1 = true) ∧
        ∀ reason ∈ (verdict outbound highImpact sensitive).2.2, reason ≠ defaultReason →
          reason ∈ (verdict outbound' highImpact' sensitive').2.2 := by decide +kernel
  obtain ⟨risk, approval, reasons⟩ := all _ _ _ _ _ _ o h s
  exact ⟨risk, approval, reasons⟩

section Contexts

variable {table : CaseTable} {lit : LiteralPrinter} {markers : List String}
variable {text context : String}

/-- The markers that are searched for. -/
theorem markers_searchable :
    ∀ marker ∈ outboundMarkers ++ highImpactMarkers ++ payloadMarkers ++ patterns,
      Searchable marker.toList ∧ marker.toList ≠ [] := by decide +kernel

theorem any_contains_mono
    (searchable : ∀ marker ∈ markers, Searchable marker.toList ∧ marker.toList ≠ [])
    (inside : text.toList <:+: context.toList) :
    markers.any (contains (toLowercase table text)) ≤
      markers.any (contains (toLowercase table context)) := by
  intro found
  obtain ⟨marker, member, occurs⟩ := List.any_eq_true.mp found
  obtain ⟨search, some_⟩ := searchable marker member
  exact List.any_eq_true.mpr ⟨marker, member, contains_of_infix table inside search some_ occurs⟩

theorem infix_between (before text after : String) :
    text.toList <:+: (before ++ text ++ after).toList := by
  rw [String.toList_append, String.toList_append]
  exact ⟨before.toList, after.toList, rfl⟩

theorem flags_eq (text source : String) : (inspectText table text source).flags =
    patterns.filter (contains (toLowercase table text)) := by
  simp only [inspectText]

theorem score_eq (text source : String) : (inspectText table text source).score =
    min (((inspectText table text source).flags.length : ℚ) / 3) 1 := by
  simp only [inspectText]

end Contexts

/-- Whatever stands around an action, a payload or a text, the verdict is at least as strict and the
inspection finds at least the same. -/
theorem contexts_weaken_nothing (table : CaseTable) (lit : LiteralPrinter)
    (before after action text source : String) (v w : Value) (occurs : Occurs v w) :
    AtLeast (classifyAction table lit (before ++ action ++ after) w)
        (classifyAction table lit action v) ∧
      (inspectText table text source).flags ⊆
        (inspectText table (before ++ text ++ after) source).flags ∧
      (inspectText table text source).score ≤
        (inspectText table (before ++ text ++ after) source).score := by
  have payload : (String.ofList (compact lit v)).toList <:+:
      (String.ofList (compact lit w)).toList := by
    rw [String.toList_ofList, String.toList_ofList]
    exact compact_infix lit occurs
  have searchable := markers_searchable
  simp only [List.forall_mem_append] at searchable
  obtain ⟨⟨⟨outbound, highImpact⟩, sensitive⟩, inspected⟩ := searchable
  have flags : ∀ pattern ∈ patterns, contains (toLowercase table text) pattern = true →
      contains (toLowercase table (before ++ text ++ after)) pattern = true := by
    intro pattern member
    obtain ⟨search, some_⟩ := inspected pattern member
    exact contains_of_infix table (infix_between before text after) search some_
  refine ⟨?_, ?_, ?_⟩
  · rw [classifyAction, classifyAction]
    exact verdict_mono (any_contains_mono outbound (infix_between before action after))
      (any_contains_mono highImpact (infix_between before action after))
      (any_contains_mono sensitive payload)
  · intro flag member
    rw [flags_eq, List.mem_filter] at member ⊢
    exact ⟨member.1, flags flag member.1 member.2⟩
  · have count : (inspectText table text source).flags.length ≤
        (inspectText table (before ++ text ++ after) source).flags.length := by
      rw [flags_eq, flags_eq, ← List.countP_eq_length_filter, ← List.countP_eq_length_filter]
      exact List.countP_mono_left flags
    rw [score_eq, score_eq]
    exact min_le_min_right 1 (div_le_div_of_nonneg_right (Nat.cast_le.mpr count) (by decide))

/-- An outbound action with personal data, wrapped in a longer name and an array. -/
theorem contexts_weaken_nothing_wrapped :
    AtLeast (classifyAction plainTable plainPrinter "Internal_Send_Email_Note"
        (.array [.null, .string "GDPR export"]))
        (classifyAction plainTable plainPrinter "Send_Email" (.string "GDPR export")) :=
  (contexts_weaken_nothing plainTable plainPrinter "Internal_" "_Note" "Send_Email" "" ""
    (.string "GDPR export") (.array [.null, .string "GDPR export"])
    (.item (List.mem_cons_of_mem _ List.mem_cons_self) .here)).1

end BusinessOs.Core.GuardrailContexts
