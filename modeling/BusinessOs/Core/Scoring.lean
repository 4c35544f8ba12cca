/- Source: rust/src/scoring.rs; rust/src/types.rs (Lead, ScoreTier)
   digest: The points of a lead's signals, their capped sum, and when both are exact. -/

import BusinessOs.Core.SkillBridge
import BusinessOs.Lib.Json.Access
import BusinessOs.Lib.MachineInt

set_option autoImplicit false
set_option relaxedAutoImplicit false

namespace BusinessOs.Core.Scoring

open BusinessOs.Lib.Chrono BusinessOs.Lib.MachineInt BusinessOs.Lib.Json.Tree
open BusinessOs.Lib.Lowercase

inductive ScoreTier
  | a | b | c
  deriving DecidableEq, Repr

structure Lead where
  email : String
  company : Option String
  name : Option String
  enrichment : Value
  deriving DecidableEq

structure ScoringConfig where
  pointsValidEmail : UInt32
  pointsHighEmailConfidence : UInt32
  pointsTeamSize : UInt32
  pointsRevenue : UInt32
  pointsDecisionMaker : UInt32
  pointsTargetIndustry : UInt32
  pointsIntentSignal : UInt32
  tierAThreshold : UInt32
  tierBThreshold : UInt32
  emailConfidenceThreshold : UInt32
  minTeamSize : UInt32
  minRevenueCents : Int64
  deriving DecidableEq

def ScoringConfig.default : ScoringConfig where
  pointsValidEmail := 10
  pointsHighEmailConfidence := 15
  pointsTeamSize := 15
  pointsRevenue := 15
  pointsDecisionMaker := 20
  pointsTargetIndustry := 15
  pointsIntentSignal := 10
  tierAThreshold := 80
  tierBThreshold := 55
  emailConfidenceThreshold := 80
  minTeamSize := 20
  minRevenueCents := 100000000

structure ScoringBreakdown where
  total : UInt32
  tier : ScoreTier
  pointsEmail : UInt32
  pointsConfidence : UInt32
  pointsTeamSize : UInt32
  pointsRevenue : UInt32
  pointsTitle : UInt32
  pointsIndustry : UInt32
  pointsIntent : UInt32
  deriving DecidableEq

structure LeadScoringService where
  config : ScoringConfig
  decisionMakerTitles : List String
  targetIndustries : List String

def defaultTitles : List String :=
  ["founder", "ceo", "coo", "cto", "vp", "head", "director", "partner", "owner", "president",
    "chief"]

def defaultIndustries : List String :=
  ["ai", "saas", "fintech", "technology", "software", "biotech", "cleantech", "climate", "crypto",
    "blockchain", "defi"]

def LeadScoringService.new (config : ScoringConfig) : LeadScoringService :=
  ⟨config, defaultTitles, defaultIndustries⟩

section Signals

variable (table : CaseTable) (self : LeadScoringService) (lead : Lead)

def LeadScoringService.classifyTier (score : UInt32) : ScoreTier :=
  if self.config.tierAThreshold ≤ score then .a
  else if self.config.tierBThreshold ≤ score then .b
  else .c

def LeadScoringService.scoreEmail : UInt32 :=
  if (SkillBridge.trimMatches SkillBridge.isWhitespace lead.email.toList).isEmpty then 0
  else self.config.pointsValidEmail

/-- `as_u64` of the member, zero if there is none, narrowed with `as u32`. -/
def narrowed (v : Option Value) : UInt32 := ((v.bind Value.asU64).getD 0).toUInt32

def LeadScoringService.scoreEmailConfidence : UInt32 :=
  let confidence := narrowed (lead.enrichment.get "email_confidence")
  if self.config.emailConfidenceThreshold ≤ confidence then self.config.pointsHighEmailConfidence
  else 0

def LeadScoringService.scoreTeamSize : UInt32 :=
  let employees := narrowed (lead.enrichment.get "employee_count")
  if self.config.minTeamSize ≤ employees then self.config.pointsTeamSize else 0

/-- `as_i64` of the member, zero if there is none. -/
def signed (v : Option Value) : ℤ := (v.bind Value.asI64).getD 0

def LeadScoringService.scoreRevenue : UInt32 :=
  let revenue := signed (lead.enrichment.get "annual_revenue")
  if self.config.minRevenueCents.toInt ≤ revenue then self.config.pointsRevenue else 0

def LeadScoringService.scoreDecisionMakerTitle : UInt32 :=
  let titleText := ((lead.enrichment.get "title").bind Value.asStr).getD ""
  let nameText := lead.name.getD ""
  let combined := toLowercase table (titleText ++ " " ++ nameText)
  if self.decisionMakerTitles.any (contains combined) then self.config.pointsDecisionMaker else 0

def LeadScoringService.scoreTargetIndustry : UInt32 :=
  let industryText := ((lead.enrichment.get "industry").bind Value.asStr).getD ""
  let companyText := lead.company.getD ""
  let combined := toLowercase table (industryText ++ " " ++ companyText)
  if self.targetIndustries.any (contains combined) then self.config.pointsTargetIndustry else 0

def LeadScoringService.scoreIntentSignal : UInt32 :=
  match lead.enrichment.get "intent_signal" with
  | some (.bool true) => self.config.pointsIntentSignal
  | some (.bool false) => 0
  | some v => if v.isNull then 0 else self.config.pointsIntentSignal
  | none => 0

/-- The outer layer is a panic of the calling thread. -/
def LeadScoringService.scoreBreakdown (mode : Overflow) : Except Panic ScoringBreakdown := do
  let pointsEmail := self.scoreEmail lead
  let pointsConfidence := self.scoreEmailConfidence lead
  let pointsTeamSize := self.scoreTeamSize lead
  let pointsRevenue := self.scoreRevenue lead
  let pointsTitle := self.scoreDecisionMakerTitle table lead
  let pointsIndustry := self.scoreTargetIndustry table lead
  let pointsIntent := self.scoreIntentSignal lead
  let total ← sumU32 mode pointsEmail [pointsConfidence, pointsTeamSize, pointsRevenue,
    pointsTitle, pointsIndustry, pointsIntent]
  let total := min total 100
  let tier := self.classifyTier total
  pure { total, tier, pointsEmail, pointsConfidence, pointsTeamSize, pointsRevenue, pointsTitle,
         pointsIndustry, pointsIntent }

end Signals

section Exact

variable (table : CaseTable) (self : LeadScoringService) (lead : Lead)

/-- The points of a signal that holds when its number has reached a threshold. -/
def pointsAt (threshold : ℚ) (points : UInt32) (v : Option Value) : UInt32 :=
  if threshold ≤ measure v then points else 0

def exactConfidence : UInt32 :=
  pointsAt self.config.emailConfidenceThreshold.toNat self.config.pointsHighEmailConfidence
    (lead.enrichment.get "email_confidence")

def exactTeamSize : UInt32 :=
  pointsAt self.config.minTeamSize.toNat self.config.pointsTeamSize
    (lead.enrichment.get "employee_count")

def exactRevenue : UInt32 :=
  pointsAt self.config.minRevenueCents.toInt self.config.pointsRevenue
    (lead.enrichment.get "annual_revenue")

/-- The sum of the points over the mathematical integers. -/
def exactSum : ℕ :=
  (self.scoreEmail lead).toNat + (exactConfidence self lead).toNat +
    (exactTeamSize self lead).toNat + (exactRevenue self lead).toNat +
    (self.scoreDecisionMakerTitle table lead).toNat +
    (self.scoreTargetIndustry table lead).toNat + (self.scoreIntentSignal lead).toNat

def exactBreakdown : ScoringBreakdown :=
  let total := UInt32.ofNat (min 100 (exactSum table self lead))
  { total
    tier := self.classifyTier total
    pointsEmail := self.scoreEmail lead
    pointsConfidence := exactConfidence self lead
    pointsTeamSize := exactTeamSize self lead
    pointsRevenue := exactRevenue self lead
    pointsTitle := self.scoreDecisionMakerTitle table lead
    pointsIndustry := self.scoreTargetIndustry table lead
    pointsIntent := self.scoreIntentSignal lead }

end Exact

/-- Where a number narrowed to 32 bits is on the same side of a threshold as its value. -/
def NarrowedFaithful (threshold : UInt32) : Option Value → Prop
  | some (.number (.posInt n)) => n.toNat < 2 ^ 32 ∨ threshold.toNat ≤ n.toNat % 2 ^ 32
  | some (.number (.negInt _ _)) => threshold ≠ 0
  | some (.number (.float bits _)) => threshold = 0 ↔ (threshold.toNat : ℚ) ≤ floatValue bits
  | _ => True

/-- Where a number read as `i64` is on the same side of a threshold as its value. -/
def SignedFaithful (threshold : Int64) : Option Value → Prop
  | some (.number (.posInt n)) => n.toNat < 2 ^ 63 ∨ threshold.toInt ≤ 0
  | some (.number (.float bits _)) => threshold.toInt ≤ 0 ↔ (threshold.toInt : ℚ) ≤ floatValue bits
  | _ => True

section Faithful

variable {v : Option Value}

/-- What is no number counts as zero in the code as well. -/
theorem zero_agrees (threshold : UInt32) :
    threshold ≤ 0 ↔ (threshold.toNat : ℚ) ≤ 0 := by
  rw [UInt32.le_iff_toNat_le, UInt32.toNat_zero, ← Nat.cast_zero (R := ℚ), Nat.cast_le]

theorem narrowed_posInt (n : UInt64) :
    (narrowed (some (.number (.posInt n)))).toNat = n.toNat % 2 ^ 32 := UInt64.toNat_toUInt32 n

theorem narrowed_agrees (threshold : UInt32) :
    (threshold ≤ narrowed v ↔ (threshold.toNat : ℚ) ≤ measure v) ↔
      NarrowedFaithful threshold v := by
  match v with
  | none | some .null | some (.bool _) | some (.string _) | some (.array _)
  | some (.object _) => exact iff_of_true (zero_agrees threshold) trivial
  | some (.number (.posInt n)) =>
    have bound := threshold.toNat_lt
    have value : measure (some (.number (.posInt n))) = n.toNat := rfl
    rw [UInt32.le_iff_toNat_le, narrowed_posInt, value, Nat.cast_le]
    simp only [NarrowedFaithful]
    omega
  | some (.number (.negInt n negative)) =>
    have value : measure (some (.number (.negInt n negative))) = n.toInt := rfl
    have below : (n.toInt : ℚ) < 0 := Int.cast_lt_zero.mpr (Int64.lt_iff_toInt_lt.mp negative)
    have above : ¬(threshold.toNat : ℚ) ≤ n.toInt :=
      not_le.mpr (below.trans_le (Nat.cast_nonneg _))
    rw [value, iff_false_right above]
    exact UInt32.le_zero_iff.not
  | some (.number (.float bits finite)) => exact iff_congr UInt32.le_zero_iff Iff.rfl

theorem signed_posInt (n : UInt64) :
    signed (some (.number (.posInt n))) = if n.toNat < 2 ^ 63 then (n.toNat : ℤ) else 0 := by
  rw [signed, Option.bind_some, Value.asI64, Value.asNumber, Option.bind_some, Number.asI64]
  split <;> rfl

theorem signed_agrees (threshold : Int64) :
    (threshold.toInt ≤ signed v ↔ (threshold.toInt : ℚ) ≤ measure v) ↔
      SignedFaithful threshold v := by
  match v with
  | none | some .null | some (.bool _) | some (.string _) | some (.array _)
  | some (.object _) => exact iff_of_true Int.cast_nonpos.symm trivial
  | some (.number (.posInt n)) =>
    have bound := threshold.toInt_lt
    have value : measure (some (.number (.posInt n))) = ((n.toNat : ℤ) : ℚ) :=
      (Int.cast_natCast _).symm
    rw [value, Int.cast_le, signed_posInt]
    simp only [SignedFaithful]
    split <;> omega
  | some (.number (.negInt n negative)) => exact iff_of_true Int.cast_le.symm trivial
  | some (.number (.float bits finite)) => exact Iff.rfl

/-- Points that are awarded on two conditions are the same if there are none or both agree. -/
theorem points_eq_iff {p q : Prop} [Decidable p] [Decidable q] {points : UInt32} :
    (if p then points else 0) = (if q then points else 0) ↔ points = 0 ∨ (p ↔ q) := by
  by_cases left : p <;> by_cases right : q <;> simp [left, right, eq_comm]

end Faithful

section Breakdown

variable {table : CaseTable} {self : LeadScoringService} {lead : Lead} {mode : Overflow}

theorem confidence_exact_iff : self.scoreEmailConfidence lead = exactConfidence self lead ↔
    self.config.pointsHighEmailConfidence = 0 ∨
      NarrowedFaithful self.config.emailConfidenceThreshold
        (lead.enrichment.get "email_confidence") := by
  rw [← narrowed_agrees]
  exact points_eq_iff

theorem teamSize_exact_iff : self.scoreTeamSize lead = exactTeamSize self lead ↔
    self.config.pointsTeamSize = 0 ∨
      NarrowedFaithful self.config.minTeamSize (lead.enrichment.get "employee_count") := by
  rw [← narrowed_agrees]
  exact points_eq_iff

theorem revenue_exact_iff : self.scoreRevenue lead = exactRevenue self lead ↔
    self.config.pointsRevenue = 0 ∨
      SignedFaithful self.config.minRevenueCents (lead.enrichment.get "annual_revenue") := by
  rw [← signed_agrees]
  exact points_eq_iff

/-- The cap of a sum that fits. -/
theorem min_hundred {n : ℕ} (small : n < 2 ^ 32) :
    min (UInt32.ofNat n) 100 = UInt32.ofNat (min 100 n) := by
  have value : (UInt32.ofNat n).toNat = n := by
    rw [UInt32.toNat_ofNat', Nat.mod_eq_of_lt small]
  have compare : UInt32.ofNat n ≤ 100 ↔ n ≤ 100 := by
    rw [UInt32.le_iff_toNat_le, value]
    rfl
  change (if UInt32.ofNat n ≤ 100 then UInt32.ofNat n else 100) = _
  split_ifs with below
  · rw [min_eq_right (compare.mp below)]
  · rw [min_eq_left (not_le.mp (compare.not.mp below)).le]
    rfl

/-- Points that are exact and fit together give the exact breakdown in both modes. -/
theorem scoreBreakdown_exact (small : exactSum table self lead < 2 ^ 32)
    (confidence : self.scoreEmailConfidence lead = exactConfidence self lead)
    (teamSize : self.scoreTeamSize lead = exactTeamSize self lead)
    (revenue : self.scoreRevenue lead = exactRevenue self lead) :
    self.scoreBreakdown table lead mode = .ok (exactBreakdown table self lead) := by
  have sum : (self.scoreEmail lead).toNat + ([exactConfidence self lead, exactTeamSize self lead,
      exactRevenue self lead, self.scoreDecisionMakerTitle table lead,
      self.scoreTargetIndustry table lead, self.scoreIntentSignal lead].map
        UInt32.toNat).sum = exactSum table self lead := by
    simp only [List.map_cons, List.map_nil, List.sum_cons, List.sum_nil, exactSum]
    omega
  have added := sumU32_small mode (sum.trans_lt small)
  rw [sum] at added
  rw [LeadScoringService.scoreBreakdown, confidence, teamSize, revenue, added, ok_bind,
    min_hundred small]
  rfl

/-- A checked build that returns the exact breakdown has added the exact points. -/
theorem scoreBreakdown_checked
    (exact : self.scoreBreakdown table lead .checked = .ok (exactBreakdown table self lead)) :
    exactSum table self lead < 2 ^ 32 ∧
      self.scoreEmailConfidence lead = exactConfidence self lead ∧
      self.scoreTeamSize lead = exactTeamSize self lead ∧
      self.scoreRevenue lead = exactRevenue self lead := by
  rw [LeadScoringService.scoreBreakdown] at exact
  cases summed : sumU32 .checked (self.scoreEmail lead) [self.scoreEmailConfidence lead,
      self.scoreTeamSize lead, self.scoreRevenue lead, self.scoreDecisionMakerTitle table lead,
      self.scoreTargetIndustry table lead, self.scoreIntentSignal lead] with
  | error p =>
    rw [summed] at exact
    exact nomatch exact
  | ok total =>
    rw [summed, ok_bind] at exact
    have fields := Except.ok.inj exact
    have confidence : self.scoreEmailConfidence lead = exactConfidence self lead :=
      congrArg ScoringBreakdown.pointsConfidence fields
    have teamSize : self.scoreTeamSize lead = exactTeamSize self lead :=
      congrArg ScoringBreakdown.pointsTeamSize fields
    have revenue : self.scoreRevenue lead = exactRevenue self lead :=
      congrArg ScoringBreakdown.pointsRevenue fields
    have small := sumU32_checked summed
    rw [confidence, teamSize, revenue] at small
    simp only [List.map_cons, List.map_nil, List.sum_cons, List.sum_nil] at small
    refine ⟨?_, confidence, teamSize, revenue⟩
    rw [exactSum]
    omega

end Breakdown

/-- The breakdown is the exact one, and nothing overflows, exactly when the points fit an `u32`
together and each number that has points is read on the right side of its threshold. -/
theorem breakdown_exact_iff (table : CaseTable) (self : LeadScoringService) (lead : Lead) :
    (∀ mode, self.scoreBreakdown table lead mode = .ok (exactBreakdown table self lead)) ↔
      exactSum table self lead < 2 ^ 32 ∧
      (self.config.pointsHighEmailConfidence = 0 ∨
        NarrowedFaithful self.config.emailConfidenceThreshold
          (lead.enrichment.get "email_confidence")) ∧
      (self.config.pointsTeamSize = 0 ∨
        NarrowedFaithful self.config.minTeamSize (lead.enrichment.get "employee_count")) ∧
      (self.config.pointsRevenue = 0 ∨
        SignedFaithful self.config.minRevenueCents (lead.enrichment.get "annual_revenue")) := by
  rw [← confidence_exact_iff, ← teamSize_exact_iff, ← revenue_exact_iff]
  constructor
  · intro exact
    exact scoreBreakdown_checked (exact .checked)
  · rintro ⟨small, confidence, teamSize, revenue⟩ mode
    exact scoreBreakdown_exact small confidence teamSize revenue

/-- A lead whose company has 2³² employees and whose email is confirmed at 90.5 percent. -/
def rareLead : Lead where
  email := ""
  company := none
  name := none
  enrichment := .object
    [("email_confidence", .number (.float 0x4056a00000000000 (by decide))),
      ("employee_count", .number (.posInt 0x100000000))]

/-- Neither number reaches its threshold in the code. -/
theorem breakdown_inexact :
    let service := LeadScoringService.new .default
    service.scoreBreakdown plainTable rareLead .checked =
        .ok ⟨0, .c, 0, 0, 0, 0, 0, 0, 0⟩ ∧
      exactBreakdown plainTable service rareLead = ⟨30, .c, 0, 15, 15, 0, 0, 0, 0⟩ := by
  decide +kernel

end BusinessOs.Core.Scoring
