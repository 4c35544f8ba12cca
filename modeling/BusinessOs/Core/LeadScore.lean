/- Source: rust/src/bridge.rs (score_lead); app/agents/lead_qualification.py
   digest: The score that the bridge gives a lead, when the numbers of its enrichment grow. -/

import BusinessOs.Core.Scoring

set_option autoImplicit false
set_option relaxedAutoImplicit false

namespace BusinessOs.Core.LeadScore

open BusinessOs.Lib.Json.Tree BusinessOs.Lib.Lowercase BusinessOs.Core.Scoring

/-- Points and a reason for a signal that holds. The `f64` sum of such points is exact. -/
def award (holds : Bool) (points : ℕ) (reason : String) (given : ℕ × List String) :
    ℕ × List String :=
  if holds then (given.1 + points, given.2 ++ [reason]) else given

section Signals

variable (table : CaseTable) (lead enrichment : Value)

def textAt (v : Value) (key : String) : String := ((v.get key).bind Value.asStr).getD ""

def hasEmail : Bool :=
  ((lead.get "email").bind Value.asStr).any fun value =>
    !(SkillBridge.trimMatches SkillBridge.isWhitespace value.toList).isEmpty

def decidesByTitle : Bool :=
  let title := toLowercase table (textAt lead "title" ++ " " ++ textAt enrichment "title")
  ["founder", "ceo", "coo", "cto", "vp", "head", "director", "partner", "owner"].any
    (contains title)

def fitsIndustry : Bool :=
  let companyText :=
    toLowercase table (textAt lead "company" ++ " " ++ textAt enrichment "industry")
  ["ai", "software", "saas", "consulting", "agency", "fintech", "health"].any
    (contains companyText)

/-- `metadata` must be an object, as `Value::get` asks of it as well. -/
def hasIntent : Bool :=
  ((lead.get "metadata").bind fun metadata => metadata.get "intent_signal").any fun value =>
    value ≠ .bool false && value ≠ .null

def tierOf (score : ℕ) : String := if 80 ≤ score then "A" else if 55 ≤ score then "B" else "C"

/-- The score, the tier and the reasons. -/
def scoreLead : ℕ × String × List String :=
  let given := (0, [])
  let given := award (hasEmail lead) 10 "valid email present" given
  let emailConfidence := signed (enrichment.get "email_confidence")
  let given := award (80 ≤ emailConfidence) 15 "high email confidence" given
  let employeeCount := signed (enrichment.get "employee_count")
  let given := award (20 ≤ employeeCount) 15 "company has meaningful team size" given
  let annualRevenue := signed (enrichment.get "annual_revenue")
  let given := award (1000000 ≤ annualRevenue) 15 "revenue threshold met" given
  let given := award (decidesByTitle table lead enrichment) 20 "decision-maker title" given
  let given := award (fitsIndustry table lead enrichment) 15 "target industry fit" given
  let given := award (hasIntent lead) 10 "intent signal" given
  let score := min given.1 100
  (score, tierOf score, given.2)

end Signals

/-- The three signals that are numbers, with the least value that scores. -/
def numericSignals : List (String × ℕ) :=
  [("email_confidence", 80), ("employee_count", 20), ("annual_revenue", 1000000)]

/-- The second enrichment differs from the first in greater numbers for these signals only. -/
structure Raised (e e' : Value) : Prop where
  others : ∀ key, key ∉ numericSignals.map Prod.fst → e'.get key = e.get key
  numbers : ∀ key ∈ numericSignals.map Prod.fst, e'.get key = e.get key ∨
    ∃ n n' : Number, e.get key = some (.number n) ∧ e'.get key = some (.number n') ∧
      n.value ≤ n'.value

/-- An integer of at least the threshold that fits an `i64`. -/
def scores (threshold : ℕ) : Option Value → Bool
  | some (.number (.posInt n)) => decide (threshold ≤ n.toNat ∧ n.toNat < 2 ^ 63)
  | _ => false

/-- How many signals score before and no longer after, and the other way round. -/
def lost (e e' : Value) : ℕ :=
  numericSignals.countP fun s => scores s.2 (e.get s.1) && !scores s.2 (e'.get s.1)

def gained (e e' : Value) : ℕ :=
  numericSignals.countP fun s => !scores s.2 (e.get s.1) && scores s.2 (e'.get s.1)

def tierRank (tier : String) : ℕ := if tier = "A" then 2 else if tier = "B" then 1 else 0

section Points

variable {table : CaseTable} {lead e e' : Value}

theorem award_points (holds : Bool) (points : ℕ) (reason : String) (given : ℕ × List String) :
    (award holds points reason given).1 = given.1 + if holds then points else 0 := by
  cases holds <;> rfl

/-- The accessor reads a scoring integer and nothing else above a threshold. -/
theorem signed_scores (threshold : ℕ) (positive : 0 < threshold) (v : Option Value) :
    decide ((threshold : ℤ) ≤ signed v) = scores threshold v := by
  match v with
  | none | some .null | some (.bool _) | some (.string _) | some (.array _)
  | some (.object _) | some (.number (.float _ _)) =>
    exact decide_eq_false (not_le.mpr (Int.natCast_pos.mpr positive))
  | some (.number (.posInt n)) =>
    rw [signed_posInt, scores, decide_eq_decide]
    split <;> omega
  | some (.number (.negInt n negative)) =>
    have value : signed (some (.number (.negInt n negative))) = n.toInt := rfl
    have below : n.toInt < 0 := Int64.lt_iff_toInt_lt.mp negative
    rw [value]
    exact decide_eq_false (by omega)

/-- The points of the other signals. -/
def otherPoints (table : CaseTable) (lead e : Value) : ℕ :=
  (if hasEmail lead then 10 else 0) + (if decidesByTitle table lead e then 20 else 0) +
    (if fitsIndustry table lead e then 15 else 0) + if hasIntent lead then 10 else 0

def scoringSignals (e : Value) : ℕ := numericSignals.countP fun s => scores s.2 (e.get s.1)

/-- Every numeric signal has the same points, and the cap is never reached. -/
theorem scoreLead_points :
    (scoreLead table lead e).1 = otherPoints table lead e + 15 * scoringSignals e := by
  have confidence := signed_scores 80 (by decide) (e.get "email_confidence")
  have employees := signed_scores 20 (by decide) (e.get "employee_count")
  have revenue := signed_scores 1000000 (by decide) (e.get "annual_revenue")
  have three : scoringSignals e = (if scores 80 (e.get "email_confidence") then 1 else 0) +
      (if scores 20 (e.get "employee_count") then 1 else 0) +
      if scores 1000000 (e.get "annual_revenue") then 1 else 0 := by
    simp only [scoringSignals, numericSignals, List.countP_cons, List.countP_nil]
    omega
  simp only [scoreLead, award_points, otherPoints, three]
  push_cast at confidence employees revenue
  rw [confidence, employees, revenue]
  split_ifs <;> rfl

/-- A greater score is in no worse tier. -/
theorem tierRank_mono {score score' : ℕ} (le : score ≤ score') :
    tierRank (tierOf score) ≤ tierRank (tierOf score') := by
  have a : tierRank "A" = 2 := by decide
  have b : tierRank "B" = 1 := by decide
  have c : tierRank "C" = 0 := by decide
  unfold tierOf
  split_ifs <;> omega

/-- What scores afterwards is what scored before, less the lost and with the gained. -/
theorem scoringSignals_balance :
    scoringSignals e + gained e e' = scoringSignals e' + lost e e' := by
  unfold scoringSignals gained lost
  induction numericSignals with
  | nil => rfl
  | cons s rest ih =>
    simp only [List.countP_cons]
    cases scores s.2 (e.get s.1) <;> cases scores s.2 (e'.get s.1) <;> simp <;> omega

theorem otherPoints_raised (raised : Raised e e') :
    otherPoints table lead e' = otherPoints table lead e := by
  have title := raised.others "title" (by decide)
  have industry := raised.others "industry" (by decide)
  unfold otherPoints decidesByTitle fitsIndustry textAt
  rw [title, industry]

/-- Enrichments that hold one numeric signal and nothing else. -/
theorem Raised.single {key : String} (numeric : key ∈ numericSignals.map Prod.fst)
    {n n' : Number} (le : n.value ≤ n'.value) :
    Raised (.object [(key, .number n)]) (.object [(key, .number n')]) := by
  have found : ∀ v, (Value.object [(key, v)]).get key = some v := by simp [Value.get]
  have absent : ∀ other v, other ≠ key → (Value.object [(key, v)]).get other = none := by
    intro other v different
    rw [Value.get, List.lookup_cons, beq_false_of_ne different]
    rfl
  refine ⟨?_, ?_⟩
  · intro other outside
    have different : other ≠ key := fun same => outside (same ▸ numeric)
    rw [absent other _ different, absent other _ different]
  · intro other _
    by_cases same : other = key
    · subst same
      exact .inr ⟨n, n', found _, found _, le⟩
    · exact .inl (by rw [absent other _ same, absent other _ same])

end Points

/-- Greater numbers give no lower score and no worse tier exactly when at least as many of the
numeric signals begin to score as stop doing so. -/
theorem score_monotone_iff (table : CaseTable) (lead e e' : Value) (raised : Raised e e') :
    (scoreLead table lead e).1 ≤ (scoreLead table lead e').1 ∧
        tierRank (scoreLead table lead e).2.1 ≤ tierRank (scoreLead table lead e').2.1 ↔
      lost e e' ≤ gained e e' := by
  have balance : scoringSignals e + gained e e' = scoringSignals e' + lost e e' :=
    scoringSignals_balance
  have scored : (scoreLead table lead e).1 ≤ (scoreLead table lead e').1 ↔
      lost e e' ≤ gained e e' := by
    rw [scoreLead_points, scoreLead_points, otherPoints_raised raised]
    omega
  constructor
  · intro monotone
    exact scored.mp monotone.1
  · intro balanced
    exact ⟨scored.mpr balanced, tierRank_mono (scored.mpr balanced)⟩

/-- More employees are known. -/
theorem score_monotone_employees :
    (scoreLead plainTable (.object []) (.object [("employee_count", .number (.posInt 5))])).1 ≤
        (scoreLead plainTable (.object []) (.object [("employee_count", .number (.posInt 50))])).1 ∧
      tierRank (scoreLead plainTable (.object [])
          (.object [("employee_count", .number (.posInt 5))])).2.1 ≤
        tierRank (scoreLead plainTable (.object [])
          (.object [("employee_count", .number (.posInt 50))])).2.1 := by
  exact (score_monotone_iff plainTable (.object [])
    (.object [("employee_count", .number (.posInt 5))])
    (.object [("employee_count", .number (.posInt 50))])
    (.single (by decide) (by decide +kernel))).mpr (by decide +kernel)

/-- A confidence of 90 that becomes 90.5 costs the lead fifteen points and its tier. -/
theorem score_falls :
    ¬∀ (table : CaseTable) (lead e e' : Value), Raised e e' →
      (scoreLead table lead e).1 ≤ (scoreLead table lead e').1 ∧
        tierRank (scoreLead table lead e).2.1 ≤ tierRank (scoreLead table lead e').2.1 := by
  intro always
  have risen : Raised
      (.object [("email_confidence", .number (.posInt 90))])
      (.object [("email_confidence",
        .number (.float 0x4056a00000000000 (by decide)))]) :=
    .single (by decide) (by decide +kernel)
  exact absurd (always plainTable
    (.object [("email", .string "a@b.co"), ("title", .string "Founder"),
      ("company", .string "Acme Software")]) _ _ risen).1 (by decide +kernel)

/-- A signal is lost to a greater number only if that number is not read. -/
theorem lost_unread {threshold : ℕ} (positive : 0 < threshold) {n n' : Number}
    (greater : n.value ≤ n'.value) (before : scores threshold (some (.number n)) = true)
    (after : scores threshold (some (.number n')) = false) : n'.asI64 = none := by
  cases read : n'.asI64 with
  | none => rfl
  | some k =>
    have value : n'.value = k := Number.asI64_value read
    have taken : signed (some (.number n')) = k := by
      rw [signed, Option.bind_some, Value.asI64, Value.asNumber, Option.bind_some, read,
        Option.getD_some]
    cases n with
    | negInt m negative => cases before
    | float bits finite => cases before
    | posInt m =>
      have reached : threshold ≤ m.toNat := (of_decide_eq_true before).1
      have above : ((m.toNat : ℤ) : ℚ) ≤ k := by
        rw [Int.cast_natCast, ← value]
        exact greater
      have least : (threshold : ℤ) ≤ k := (Int.ofNat_le.mpr reached).trans (Int.cast_le.mp above)
      rw [← signed_scores threshold positive, taken, decide_eq_true least] at after
      cases after

end BusinessOs.Core.LeadScore
