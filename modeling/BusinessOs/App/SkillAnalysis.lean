/- Source: app/services/skills.py (SkillRegistry._title_from_description, _infer_tags, _infer_tools,
     _infer_approval_policy); rust/src/bridge.rs (analyze_skill_description)
   digest: When the bridge makes of a description what the Python methods before it made. -/

import BusinessOs.App.Skills
import BusinessOs.Core.SlugForm

set_option autoImplicit false
set_option relaxedAutoImplicit false

namespace BusinessOs.App.SkillAnalysis

open BusinessOs.Lib.Lowercase BusinessOs.Lib.Runs BusinessOs.Core BusinessOs.Core.SkillBridge

/-- The cases of single characters. The languages go by one table of lowercase letters, and by the
same uppercase and title case of ASCII. -/
structure Casing where
  table : CaseTable
  upper : Char → List Char
  titlecase : Char → List Char
  upper_ascii : ∀ c, isAscii c = true → upper c = [c.toUpper]
  titlecase_ascii : ∀ c, isAscii c = true → titlecase c = [c.toUpper]
  cased_ascii : ∀ c, isAscii c = true → table.cased c = c.isAlpha

def strip (word : List Char) : List Char :=
  trimMatches (fun c => ".,:;()[]{}".toList.contains c) word

section Python

variable (casing : Casing)

/-- The loop of `str.title`: behind a cased character comes lowercase, elsewhere title case. The
characters before are reversed. -/
def titleFrom : Bool → List Char → List Char → List Char
  | _, _, [] => []
  | cased, before, c :: after =>
    (if cased then lowerAt casing.table before c after else casing.titlecase c) ++
      titleFrom (casing.table.cased c) (c :: before) after

def title (text : String) : String := String.ofList (titleFrom casing false [] text.toList)

/-- The words are measured in characters, and before they are stripped. -/
def titleFromDescription (description : String) : String :=
  let words := ((splitWhitespace description.toList).filter fun word =>
    decide (2 < word.length)).map strip
  let titled := title casing (" ".intercalate ((words.take 5).map String.ofList))
  if titled = "" then "Custom Skill" else titled

def inferTags (description : String) : List String :=
  let text := toLowercase casing.table description
  let tags := ["sales", "content", "email", "social", "finance", "legal", "security", "research",
    "analytics", "customer", "youtube", "newsletter"].foldl
    (fun tags tag => if contains text tag then tags ++ [tag] else tags) []
  if tags.isEmpty then ["custom"] else tags

def inferTools (description : String) : List String :=
  let text := toLowercase casing.table description
  [("email", "email_draft"), ("social", "social_draft"), ("linkedin", "social_draft"),
    ("twitter", "social_draft"), ("x/", "social_draft"), ("youtube", "document_generation"),
    ("crm", "crm"), ("lead", "apollo"), ("invoice", "stripe"), ("finance", "accounting"),
    ("calendar", "calendar"), ("research", "web_research")].foldl
    (fun tools item =>
      if contains text item.1 && !tools.contains item.2 then tools ++ [item.2] else tools)
    ["memory"]

def inferApprovalPolicy (description : String) : String :=
  let text := toLowercase casing.table description
  if ["send", "publish", "post", "email", "message", "approval", "approve"].any (contains text) then
    "human_approval_required_before_external_action"
  else if ["money", "payment", "contract", "delete"].any (contains text) then
    "human_approval_required_before_high_impact_action"
  else "autonomous_with_audit"

/-- The analysis without a name gives what the methods that it replaced give. -/
def PortAgrees (description : String) : Prop :=
  let analysis := analyzeSkillDescription casing.table casing.upper description none
  analysis.slug = Skills.slugify casing.table (titleFromDescription casing description) ∧
    analysis.tags = inferTags casing description ∧
    analysis.tools = inferTools casing description ∧
    analysis.approvalPolicy = inferApprovalPolicy casing description

end Python

section Inferred

variable (casing : Casing) (description : String)

/-- The loop that appends what it finds. -/
theorem foldl_collect (p : String → Bool) (items found : List String) :
    items.foldl (fun found item => if p item then found ++ [item] else found) found =
      found ++ items.filter p := by
  induction items generalizing found with
  | nil => simp
  | cons item items ih =>
    rw [List.foldl_cons, ih]
    by_cases own : p item = true
    · simp [own]
    · simp [own]

theorem inferTags_eq :
    SkillBridge.inferTags casing.table description = inferTags casing description := by
  have collected :=
    foldl_collect (contains (toLowercase casing.table description)) SkillBridge.tags []
  rw [List.nil_append] at collected
  exact (congrArg (fun found => if found.isEmpty then ["custom"] else found) collected).symm

theorem inferTools_eq :
    SkillBridge.inferTools casing.table description = inferTools casing description := rfl

theorem inferApprovalPolicy_eq :
    SkillBridge.inferApprovalPolicy casing.table description =
      inferApprovalPolicy casing description := rfl

end Inferred

/-! The letters and digits of a title, word by word. -/

section Spelled

variable (casing : Casing)

/-- The lowercase of a character that stands alone. -/
def lowerAlone (c : Char) : List Char := lowerAt casing.table [] c []

def capitalise (word : List Char) : List Char :=
  match word with
  | [] => []
  | first :: rest => casing.upper first ++ rest

/-- Title case without a look at what stands around. -/
def titled : Bool → List Char → List Char
  | _, [] => []
  | cased, c :: cs =>
    (if cased then lowerAlone casing c else casing.titlecase c) ++ titled (casing.table.cased c) cs

def spelledByBridge (word : List Char) : List Char :=
  (capitalise casing word).flatMap (lowerAlone casing)

def spelledByPython (word : List Char) : List Char :=
  (titled casing false word).flatMap (lowerAlone casing)

/-- The words that `title_from_description` takes: more than two bytes once they are stripped. -/
def keptByBridge (description : String) : List (List Char) :=
  (((splitWhitespace description.toList).map strip).filter fun word =>
    decide (2 < (String.ofList word).utf8ByteSize)).take 5

/-- The words that `_title_from_description` takes: more than two characters before. -/
def keptByPython (description : String) : List (List Char) :=
  (((splitWhitespace description.toList).filter fun word =>
    decide (2 < word.length)).map strip).take 5

/-- The runs of letters and digits of some words, joined and cut to the length of a slug. -/
def slugLetters (spell : List Char → List Char) (kept : List (List Char)) : List Char :=
  (List.intercalate ['_'] (kept.flatMap fun word => runs isSlugChar (spell word))).take 80

def orCustom (letters : List Char) : List Char :=
  if letters.isEmpty then "custom_skill".toList else letters

/-- The words that the bridge takes and those that Python takes spell the same letters and digits:
the two slugs, by what each pipeline leaves of them. -/
def SpelledAlike (description : String) : Prop :=
  orCustom (slugLetters (spelledByBridge casing) (keptByBridge description)) =
    orCustom (slugLetters (spelledByPython casing) (keptByPython description))

end Spelled

section Cases

variable (casing : Casing) {c : Char}

theorem slugChar_ascii (keep : isSlugChar c = true) : isAscii c = true :=
  (SlugForm.toLower_slugChar (.inl keep)).1

theorem skip_foreign (foreign : isAscii c = false) : isSlugChar c = false := by
  rw [Bool.eq_false_iff]
  intro keep
  rw [slugChar_ascii keep] at foreign
  cases foreign

theorem toLower_cases (ascii : isAscii c = true) :
    c.toUpper.toLower = c.toLower ∧ c.toLower.toLower = c.toLower ∧
      isAscii c.toUpper = true ∧ isAscii c.toLower = true := by
  have all : ∀ n < 128, (Char.ofNat n).toUpper.toLower = (Char.ofNat n).toLower ∧
      (Char.ofNat n).toLower.toLower = (Char.ofNat n).toLower ∧
      isAscii (Char.ofNat n).toUpper = true ∧ isAscii (Char.ofNat n).toLower = true := by
    decide
  have own := all c.toNat (of_decide_eq_true ascii)
  rwa [Char.ofNat_toNat] at own

theorem lowerAlone_ascii (ascii : isAscii c = true) : lowerAlone casing c = [c.toLower] :=
  lowerAt_ascii ascii [] []

/-- A small sigma, final or not, lowers to no letter of a slug. -/
theorem lowerAlone_sigma (foreign : isAscii c = false) (kelvin : c ≠ kelvinSign)
    (dotted : c ≠ dottedI) (sigma : c ≠ bigSigma) :
    lowerAlone casing c ≠ [] ∧ ∀ d ∈ lowerAlone casing c, isSlugChar d = false := by
  rw [lowerAlone, lowerAt, if_neg sigma]
  refine ⟨casing.table.lower_ne_nil c, fun d member => ?_⟩
  exact skip_foreign (casing.table.lower_foreign c foreign kelvin dotted d member)

/-- What stands around a character changes at most which sigma it becomes. -/
theorem lowerAt_cases (before after : List Char) :
    lowerAt casing.table before c after = lowerAlone casing c ∨
      lowerAlone casing c = ['\u03C3'] ∧ lowerAt casing.table before c after = ['\u03C2'] := by
  by_cases sigma : c = bigSigma
  · subst sigma
    have alone : lowerAlone casing bigSigma = ['\u03C3'] := rfl
    rw [alone, lowerAt, if_pos rfl]
    split_ifs
    · exact .inr ⟨rfl, rfl⟩
    · exact .inl rfl
  · left
    rw [lowerAlone, lowerAt, lowerAt, if_neg sigma, if_neg sigma]

theorem lowerAt_alike (before after : List Char) :
    Alike isSlugChar (lowerAt casing.table before c after) (lowerAlone casing c) := by
  rcases lowerAt_cases casing before after (c := c) with same | ⟨alone, final⟩
  · rw [same]
    exact .refl _
  · rw [alone, final]
    exact .of_gap (by simp) (by simp) (by simp; decide) (by simp; decide)

/-- A second lowercasing makes no difference between the two sigmas. -/
theorem lowerAt_again_alike (before after : List Char) :
    Alike isSlugChar ((lowerAt casing.table before c after).flatMap (lowerAlone casing))
      ((lowerAlone casing c).flatMap (lowerAlone casing)) := by
  rcases lowerAt_cases casing before after (c := c) with same | ⟨alone, final⟩
  · rw [same]
    exact .refl _
  · have left := lowerAlone_sigma casing (c := '\u03C2') (by decide) (by decide)
      (by decide) (by decide)
    have right := lowerAlone_sigma casing (c := '\u03C3') (by decide) (by decide)
      (by decide) (by decide)
    rw [alone, final, List.flatMap_singleton, List.flatMap_singleton]
    exact .of_gap left.1 right.1 left.2 right.2

end Cases

section Titles

variable (casing : Casing)

theorem lowered_alike (before text : List Char) :
    Alike isSlugChar (lowerFrom casing.table before text) (text.flatMap (lowerAlone casing)) := by
  induction text generalizing before with
  | nil => exact .nil
  | cons c text ih =>
    rw [lowerFrom, List.flatMap_cons]
    exact (lowerAt_alike casing before text).append (ih (c :: before))

/-- The words of a text, as `slugify` sees them, from its characters alone. -/
theorem words_eq (text : List Char) :
    SlugForm.words casing.table (String.ofList text) =
      runs isSlugChar (text.flatMap (lowerAlone casing)) := by
  rw [SlugForm.words, toLowercase, String.toList_ofList, String.toList_ofList]
  exact (lowered_alike casing [] text).runs_eq

theorem titleFrom_alike (cased : Bool) (before text : List Char) :
    Alike isSlugChar ((titleFrom casing cased before text).flatMap (lowerAlone casing))
      ((titled casing cased text).flatMap (lowerAlone casing)) := by
  induction text generalizing cased before with
  | nil => exact .nil
  | cons c text ih =>
    rw [titleFrom, titled, List.flatMap_append, List.flatMap_append]
    refine Alike.append ?_ (ih _ _)
    cases cased with
    | true => exact lowerAt_again_alike casing before text
    | false => exact .refl _

theorem lowerAlone_space : lowerAlone casing ' ' = [' '] := lowerAlone_ascii casing (by decide)

/-- A blank is kept, and what stands behind it is capitalised. -/
theorem titled_space (cased : Bool) (rest : List Char) :
    titled casing cased (' ' :: rest) = ' ' :: titled casing false rest := by
  have uncased : casing.table.cased ' ' = false := casing.cased_ascii ' ' (by decide)
  have same : casing.titlecase ' ' = [' '] := casing.titlecase_ascii ' ' (by decide)
  rw [titled, uncased, lowerAlone_space, same, ite_self, List.singleton_append]

theorem titled_append_space (cased : Bool) (word rest : List Char) :
    titled casing cased (word ++ ' ' :: rest) =
      titled casing cased word ++ ' ' :: titled casing false rest := by
  induction word generalizing cased with
  | nil => exact titled_space casing cased rest
  | cons c word ih => rw [List.cons_append, titled, titled, ih, List.append_assoc]

theorem titled_intercalate (kept : List (List Char)) :
    titled casing false (List.intercalate [' '] kept) =
      List.intercalate [' '] (kept.map (titled casing false)) :=
  map_intercalate rfl (titled_append_space casing false) kept

theorem flatMap_intercalate (kept : List (List Char)) :
    (List.intercalate [' '] kept).flatMap (lowerAlone casing) =
      List.intercalate [' '] (kept.map fun word => word.flatMap (lowerAlone casing)) := by
  refine map_intercalate List.flatMap_nil (fun first second => ?_) kept
  rw [List.flatMap_append, List.flatMap_cons, lowerAlone_space, List.singleton_append]

/-- The words of a text of several are those of each. -/
theorem runs_joined (kept : List (List Char)) :
    runs isSlugChar ((List.intercalate [' '] kept).flatMap (lowerAlone casing)) =
      kept.flatMap fun word => runs isSlugChar (word.flatMap (lowerAlone casing)) := by
  have cut : isSlugChar ' ' = false := by decide
  rw [flatMap_intercalate, runs_intercalate cut, List.flatMap_map]

theorem slugify_letters (text : List Char) :
    slugify casing.table (String.ofList text) = String.ofList (orCustom
      ((List.intercalate ['_'] (runs isSlugChar (text.flatMap (lowerAlone casing)))).take 80)) := by
  rw [SlugForm.slugify_words, words_eq, orCustom]
  split_ifs
  · rw [String.ofList_toList]
  · rfl

/-- The title that stands where there is none has the slug that stands where there is none. -/
theorem slugify_custom : slugify casing.table "Custom Skill" = "custom_skill" := by
  have plain : ∀ c ∈ "Custom Skill".toList, isAscii c = true := by
    have letters : "Custom Skill".toList =
        ['C', 'u', 's', 't', 'o', 'm', ' ', 'S', 'k', 'i', 'l', 'l'] := by decide
    rw [letters]
    simp [isAscii]
  have lowered : toLowercase casing.table "Custom Skill" = "custom skill" := by
    rw [toLowercase, lowerFrom_ascii plain]
    decide
  rw [slugify, lowered]
  decide +kernel

theorem join_space (texts : List (List Char)) :
    " ".intercalate (texts.map String.ofList) = String.ofList (List.intercalate [' '] texts) := by
  have back : String.toList ∘ String.ofList = id := funext fun _ => String.toList_ofList
  rw [← String.toList_inj, String.toList_intercalate, String.toList_ofList, List.map_map, back,
    List.map_id, String.toList_ofList]

/-- Without letters both fall back to the same name. -/
theorem slug_none {letters : List Char} (none_ : letters = []) :
    String.ofList (orCustom letters) = "custom_skill" := by
  rw [orCustom, none_, List.isEmpty_nil, if_pos rfl, String.ofList_toList]

theorem bridge_title (upper : Char → List Char) (description : String) :
    SkillBridge.titleFromDescription upper description =
      if (keptByBridge description).isEmpty then "Custom Skill"
      else " ".intercalate ((keptByBridge description).map fun word =>
        match word with
        | [] => ""
        | first :: rest => String.ofList (upper first ++ rest)) := rfl

theorem slug_bridge (description : String) :
    slugify casing.table (SkillBridge.titleFromDescription casing.upper description) =
      String.ofList (orCustom
        (slugLetters (spelledByBridge casing) (keptByBridge description))) := by
  rw [bridge_title]
  split_ifs with none_
  · have silent : slugLetters (spelledByBridge casing) [] = [] := rfl
    rw [slugify_custom, List.isEmpty_iff.mp none_, slug_none silent]
  · have words : ((keptByBridge description).map fun word =>
        match word with
        | [] => ""
        | first :: rest => String.ofList (casing.upper first ++ rest)) =
        ((keptByBridge description).map (capitalise casing)).map String.ofList := by
      rw [List.map_map]
      apply List.map_congr_left
      intro word _
      cases word with
      | nil => rfl
      | cons first rest => rfl
    rw [words, join_space, slugify_letters, runs_joined, List.flatMap_map]
    rfl

theorem slug_python (description : String) :
    slugify casing.table (titleFromDescription casing description) =
      String.ofList (orCustom
        (slugLetters (spelledByPython casing) (keptByPython description))) := by
  have kept : (((splitWhitespace description.toList).filter fun word =>
      decide (2 < word.length)).map strip).take 5 = keptByPython description := rfl
  have letters : runs isSlugChar ((titleFrom casing false []
      (List.intercalate [' '] (keptByPython description))).flatMap (lowerAlone casing)) =
      (keptByPython description).flatMap fun word =>
        runs isSlugChar (spelledByPython casing word) := by
    rw [(titleFrom_alike casing false [] _).runs_eq, titled_intercalate, runs_joined,
      List.flatMap_map]
    rfl
  unfold titleFromDescription
  dsimp only
  rw [kept, join_space, title, String.toList_ofList]
  split_ifs with none_
  · have empty : titleFrom casing false [] (List.intercalate [' '] (keptByPython description)) =
        [] := by
      rw [← String.toList_ofList (l := titleFrom _ _ _ _), none_]
      decide
    rw [empty, List.flatMap_nil, runs] at letters
    have silent : slugLetters (spelledByPython casing) (keptByPython description) = [] := by
      rw [slugLetters, ← letters, List.intercalate_nil, List.take_nil]
    rw [slugify_custom, slug_none silent]
  · rw [slugify_letters, letters]
    rfl

/-- Only the slugs can differ. -/
theorem portAgrees_spelled (description : String) :
    PortAgrees casing description ↔ SpelledAlike casing description := by
  have python : Skills.slugify casing.table (titleFromDescription casing description) =
      String.ofList (orCustom
        (slugLetters (spelledByPython casing) (keptByPython description))) := by
    rw [Skills.slugify_eq, slug_python]
  unfold PortAgrees analyzeSkillDescription
  dsimp only
  rw [Option.getD_none, slug_bridge, python, inferTags_eq, inferTools_eq, inferApprovalPolicy_eq,
    String.ofList_inj]
  exact and_iff_left ⟨rfl, rfl, rfl⟩

end Titles

/-! What is left to differ: which words are taken, and the case of a character in its word. -/

/-- Python measures a word as it stands. -/
def long (word : List Char) : Bool := decide (2 < word.length)

/-- The bridge measures the bytes that stripping leaves. -/
def longStripped (word : List Char) : Bool := decide (2 < (String.ofList (strip word)).utf8ByteSize)

/-- The words up to the one that completes `few` of those that Python takes. -/
def lookedAt : ℕ → List (List Char) → List (List Char)
  | _, [] => []
  | 0, _ :: _ => []
  | few + 1, word :: words => word :: lookedAt (if long word then few else few + 1) words

section Kinds

variable (casing : Casing)

/-- The two cases of a character spell the same letters and digits. The bridge puts the first one of
a word in uppercase and leaves the others; Python puts one behind a cased character in lowercase,
and any other in title case. -/
def CasedAlike (starts cased : Bool) (c : Char) : Prop :=
  Alike isSlugChar ((if starts then casing.upper c else [c]).flatMap (lowerAlone casing))
    ((if cased then lowerAlone casing c else casing.titlecase c).flatMap (lowerAlone casing))

/-- So do those of each character of a word, by its place. -/
def WordAlike (word : List Char) : Prop :=
  ∀ before c after, word = before ++ c :: after →
    CasedAlike casing before.isEmpty (before.getLast?.any casing.table.cased) c

/-- Each word that Python looks at, up to the fifth one that it takes, is taken by both languages or
by none, and spelled alike if it is taken. -/
structure TakenAlike (description : String) : Prop where
  kept : ∀ word ∈ lookedAt 5 (splitWhitespace description.toList), longStripped word = long word
  cased : ∀ word ∈ lookedAt 5 (splitWhitespace description.toList), long word = true →
    WordAlike casing (strip word)

/-- A text without a letter or digit of a slug. -/
def Silent (text : List Char) : Prop := text ≠ [] ∧ ∀ c ∈ text, isSlugChar c = false

/-- A character of ASCII, or one that no change of case turns into ASCII. -/
def Plain (c : Char) : Prop :=
  isAscii c = true ∨ ∀ form ∈ [casing.upper c, casing.titlecase c, [c], lowerAlone casing c],
    Silent (form.flatMap (lowerAlone casing))

variable {casing} {starts cased : Bool} {c : Char}

theorem casedAlike_ascii (ascii : isAscii c = true) : CasedAlike casing starts cased c := by
  obtain ⟨upper, lower, upperAscii, lowerAscii⟩ := toLower_cases ascii
  have alone : lowerAlone casing c = [c.toLower] := lowerAlone_ascii casing ascii
  have uppercase : [c.toUpper].flatMap (lowerAlone casing) = [c.toLower] := by
    rw [List.flatMap_singleton, lowerAlone_ascii casing upperAscii, upper]
  have bridge : (if starts then casing.upper c else [c]).flatMap (lowerAlone casing) =
      [c.toLower] := by
    cases starts with
    | true => rw [if_pos rfl, casing.upper_ascii c ascii, uppercase]
    | false => rw [if_neg Bool.false_ne_true, List.flatMap_singleton, alone]
  have python : (if cased then lowerAlone casing c else casing.titlecase c).flatMap
      (lowerAlone casing) = [c.toLower] := by
    cases cased with
    | true =>
      rw [if_pos rfl, alone, List.flatMap_singleton, lowerAlone_ascii casing lowerAscii, lower]
    | false => rw [if_neg Bool.false_ne_true, casing.titlecase_ascii c ascii, uppercase]
  rw [CasedAlike, bridge, python]
  exact .refl _

/-- A plain character is spelled alike in every place. -/
theorem Plain.casedAlike (plain : Plain casing c) : CasedAlike casing starts cased c := by
  rcases plain with ascii | silent
  · exact casedAlike_ascii ascii
  · have bridge : Silent ((if starts then casing.upper c else [c]).flatMap
        (lowerAlone casing)) := by
      cases starts with
      | true => exact silent _ (by simp)
      | false => exact silent _ (by simp)
    have python : Silent ((if cased then lowerAlone casing c else casing.titlecase c).flatMap
        (lowerAlone casing)) := by
      cases cased with
      | true => exact silent _ (by simp)
      | false => exact silent _ (by simp)
    exact .of_gap bridge.1 python.1 bridge.2 python.2

theorem wordAlike_plain {word : List Char} (plain : ∀ c ∈ word, Plain casing c) :
    WordAlike casing word := by
  intro before c after split
  exact (plain c (by rw [split]; simp)).casedAlike

/-- Behind its first character a word is spelled alike, by what stands ahead of each one. -/
theorem titled_alike {before text : List Char} (some_ : before ≠ [])
    (alike : ∀ between c after, text = between ++ c :: after →
      CasedAlike casing false ((before ++ between).getLast?.any casing.table.cased) c) :
    Alike isSlugChar (text.flatMap (lowerAlone casing))
      ((titled casing (before.getLast?.any casing.table.cased) text).flatMap
        (lowerAlone casing)) := by
  induction text generalizing before with
  | nil => exact .nil
  | cons c text ih =>
    have own := alike [] c text rfl
    rw [List.append_nil, CasedAlike, if_neg Bool.false_ne_true, List.flatMap_singleton] at own
    have others := @ih (before ++ [c]) (by simp) fun between d after split => by
      rw [List.append_assoc]
      exact alike (c :: between) d after (by rw [split, List.cons_append])
    rw [List.getLast?_append, List.getLast?_singleton, Option.some_or, Option.any_some] at others
    rw [titled, List.flatMap_cons, List.flatMap_append]
    exact own.append others

theorem spelled_eq {word : List Char} (alike : WordAlike casing word) :
    runs isSlugChar (spelledByBridge casing word) =
      runs isSlugChar (spelledByPython casing word) := by
  cases word with
  | nil => rfl
  | cons c rest =>
    have first : CasedAlike casing true false c := alike [] c rest rfl
    rw [CasedAlike, if_pos rfl, if_neg Bool.false_ne_true] at first
    have others := @titled_alike casing [c] rest (List.cons_ne_nil _ _)
      fun between d after split =>
        alike (c :: between) d after (by rw [split, List.cons_append])
    rw [List.getLast?_singleton, Option.any_some] at others
    apply Alike.runs_eq
    rw [spelledByBridge, spelledByPython, capitalise, titled, if_neg Bool.false_ne_true,
      List.flatMap_append, List.flatMap_append]
    exact first.append others

theorem strip_subset (word : List Char) : strip word ⊆ word :=
  fun _ member => (List.dropWhile_suffix _).subset ((List.rdropWhile_prefix _ _).subset member)

/-- The first words of a kind are known once enough words have been looked at. -/
theorem take_filter_lookedAt {few : ℕ} {words : List (List Char)}
    (same : ∀ word ∈ lookedAt few words, longStripped word = long word) :
    (words.filter longStripped).take few = (words.filter long).take few := by
  induction words generalizing few with
  | nil => rfl
  | cons word words ih =>
    cases few with
    | zero => rw [List.take_zero, List.take_zero]
    | succ few =>
      obtain ⟨own, others⟩ := List.forall_mem_cons.mp same
      rw [List.filter_cons, List.filter_cons, own]
      cases taken : long word with
      | true =>
        rw [if_pos taken] at others
        rw [if_pos rfl, if_pos rfl, List.take_succ_cons, List.take_succ_cons, ih others]
      | false =>
        rw [if_neg (Bool.eq_false_iff.mp taken)] at others
        rw [if_neg Bool.false_ne_true, if_neg Bool.false_ne_true, ih others]

/-- Python looks at every word that it takes. -/
theorem take_filter_subset (few : ℕ) (words : List (List Char)) :
    (words.filter long).take few ⊆ lookedAt few words := by
  induction words generalizing few with
  | nil => simp
  | cons word words ih =>
    cases few with
    | zero =>
      rw [List.take_zero]
      exact List.nil_subset _
    | succ few =>
      rw [List.filter_cons, lookedAt]
      cases taken : long word with
      | true =>
        rw [if_pos rfl, if_pos rfl, List.take_succ_cons]
        exact List.cons_subset_cons _ (ih few)
      | false =>
        rw [if_neg Bool.false_ne_true, if_neg Bool.false_ne_true]
        exact List.subset_cons_of_subset _ (ih (few + 1))

theorem keptByPython_eq (description : String) : keptByPython description =
    (((splitWhitespace description.toList).filter long).take 5).map strip := List.map_take.symm

theorem keptByBridge_eq (description : String) : keptByBridge description =
    (((splitWhitespace description.toList).filter longStripped).take 5).map strip := by
  rw [List.map_take, keptByBridge, List.filter_map]
  rfl

/-- Words that are taken alike spell the same slug. -/
theorem TakenAlike.spelledAlike {description : String} (taken : TakenAlike casing description) :
    SpelledAlike casing description := by
  have kept : keptByBridge description = keptByPython description := by
    rw [keptByBridge_eq, keptByPython_eq, take_filter_lookedAt taken.kept]
  have letters : ((keptByPython description).flatMap fun word =>
      runs isSlugChar (spelledByBridge casing word)) =
      (keptByPython description).flatMap fun word =>
        runs isSlugChar (spelledByPython casing word) := by
    apply List.flatMap_congr
    intro word member
    rw [keptByPython_eq] at member
    obtain ⟨whole, there, rfl⟩ := List.mem_map.mp member
    exact spelled_eq (taken.cased whole (take_filter_subset _ _ there)
      (List.mem_filter.mp (List.mem_of_mem_take there)).2)
  rw [SpelledAlike, kept, slugLetters, slugLetters, letters]

end Kinds

/-! Short descriptions in ASCII, where only the order of stripping and measuring is left. -/

section Short

variable (casing : Casing)

/-- Stripping leaves at most two characters of more, so that Python takes the word and the bridge
does not. -/
def Shortened (word : List Char) : Prop := 2 < word.length ∧ (strip word).length ≤ 2

/-- What a word in ASCII adds to a slug. -/
def spelled (word : List Char) : List (List Char) := runs isSlugChar (word.map Char.toLower)

/-- A description in ASCII of which Python takes at most five words, with at most as many letters
and digits as a slug has. -/
structure Short (description : String) : Prop where
  ascii : ∀ word ∈ splitWhitespace description.toList, ∀ c ∈ word, isAscii c = true
  few : ((splitWhitespace description.toList).filter long).length ≤ 5
  fits : (List.intercalate ['_'] ((keptByPython description).flatMap spelled)).length ≤ 80

variable {casing} {description : String} {word : List Char}

theorem isSlugChar_toLower {c : Char} (ascii : isAscii c = true) :
    isSlugChar c.toLower = c.isAlphanum := by
  have all : ∀ n < 128, isSlugChar (Char.ofNat n).toLower = (Char.ofNat n).isAlphanum := by
    decide
  have own := all c.toNat (of_decide_eq_true ascii)
  rwa [Char.ofNat_toNat] at own

theorem strip_ascii (ascii : ∀ c ∈ word, isAscii c = true) : ∀ c ∈ strip word, isAscii c = true :=
  fun c member => ascii c (strip_subset word member)

theorem spelledByBridge_ascii (ascii : ∀ c ∈ word, isAscii c = true) :
    spelledByBridge casing word = word.map Char.toLower := by
  have single : ∀ text : List Char, (∀ c ∈ text, isAscii c = true) →
      text.flatMap (lowerAlone casing) = text.map Char.toLower := by
    intro text all
    rw [List.map_eq_flatMap]
    exact List.flatMap_congr fun c member => lowerAlone_ascii casing (all c member)
  cases word with
  | nil => rfl
  | cons first rest =>
    obtain ⟨own, others⟩ := List.forall_mem_cons.mp ascii
    obtain ⟨upper, _, upperAscii, _⟩ := toLower_cases own
    rw [spelledByBridge, capitalise, casing.upper_ascii first own, List.flatMap_append,
      List.flatMap_singleton, lowerAlone_ascii casing upperAscii, upper, single rest others,
      List.map_cons, List.singleton_append]

theorem runs_spelledByPython_ascii (ascii : ∀ c ∈ word, isAscii c = true) :
    runs isSlugChar (spelledByPython casing word) = spelled word := by
  have alike : WordAlike casing word := wordAlike_plain fun c member => .inl (ascii c member)
  rw [← spelled_eq alike, spelledByBridge_ascii ascii, spelled]

/-- Such a word has no part in a slug exactly when it has neither letter nor digit. -/
theorem spelled_eq_nil_iff (ascii : ∀ c ∈ word, isAscii c = true) :
    spelled word = [] ↔ ∀ c ∈ word, c.isAlphanum = false := by
  rw [spelled, runs_eq_nil_iff, List.forall_mem_map]
  exact forall₂_congr fun c member => by rw [isSlugChar_toLower (ascii c member)]

theorem Short.keptByPython_eq (short : Short description) :
    keptByPython description =
      ((splitWhitespace description.toList).filter long).map strip := by
  apply List.take_of_length_le
  rw [List.length_map]
  exact short.few

/-- The bridge takes those of Python's words that stripping leaves long enough. -/
theorem Short.keptByBridge_eq (short : Short description) :
    keptByBridge description = (keptByPython description).filter long := by
  have longer : ((splitWhitespace description.toList).map strip).filter
        (fun word => decide (2 < (String.ofList word).utf8ByteSize)) =
      (((splitWhitespace description.toList).filter long).map strip).filter long := by
    rw [List.filter_map, List.filter_map, List.filter_filter]
    congr 1
    apply List.filter_congr
    intro word member
    have bytes := utf8ByteSize_ascii (strip_ascii (short.ascii word member))
    have shorter : (strip word).length ≤ word.length :=
      ((List.rdropWhile_prefix _ _).length_le).trans (List.dropWhile_suffix _).length_le
    rw [Function.comp_apply, Function.comp_apply, bytes, long, long, ← Bool.decide_and,
      decide_eq_decide]
    omega
  have few : ((((splitWhitespace description.toList).filter long).map strip).filter
      long).length ≤ 5 := by
    refine (List.length_filter_le _ _).trans ?_
    rw [List.length_map]
    exact short.few
  rw [keptByBridge, longer, short.keptByPython_eq, List.take_of_length_le few]

theorem Short.kept_ascii (short : Short description) :
    ∀ word ∈ keptByPython description, ∀ c ∈ word, isAscii c = true := by
  rw [short.keptByPython_eq]
  intro word member
  obtain ⟨whole, there, rfl⟩ := List.mem_map.mp member
  exact strip_ascii (short.ascii whole (List.mem_of_mem_filter there))

/-- Joined parts are the same, up to the name that stands where there are none, when the parts
are. -/
theorem orCustom_join_iff {kept parts : List (List Char)} (sub : kept.Sublist parts)
    (made : ∀ part ∈ parts, Part isSlugChar part)
    (foreign : kept = [] → "custom".toList ∉ parts) :
    orCustom (List.intercalate ['_'] kept) = orCustom (List.intercalate ['_'] parts) ↔
      kept = parts := by
  have cut : isSlugChar '_' = false := by decide
  have madeKept : ∀ part ∈ kept, Part isSlugChar part := fun part member =>
    made part (sub.subset member)
  refine ⟨fun same => ?_, fun same => by rw [same]⟩
  by_cases noParts : parts = []
  · rw [noParts] at sub ⊢
    exact List.sublist_nil.mp sub
  have someLetters : List.intercalate ['_'] parts ≠ [] := intercalate_ne_nil made noParts
  by_cases noneKept : kept = []
  · -- the name itself would have to be among the parts
    have name : "custom_skill".toList = List.intercalate ['_'] parts := by
      rwa [noneKept, List.intercalate_nil, orCustom, List.isEmpty_nil, if_pos rfl, orCustom,
        if_neg (by simpa using someLetters)] at same
    have told := runs_joined_parts made cut
    have custom : "custom".toList ∈ runs isSlugChar "custom_skill".toList := by
      have joined : "custom_skill".toList =
          List.intercalate ['_'] ["custom".toList, "skill".toList] := by decide
      have words : ∀ part ∈ ["custom".toList, "skill".toList], Part isSlugChar part :=
        List.forall_mem_cons.mpr ⟨⟨by decide, List.all_eq_true.mp (by decide +kernel)⟩,
          List.forall_mem_singleton.mpr ⟨by decide, List.all_eq_true.mp (by decide +kernel)⟩⟩
      rw [joined, runs_joined_parts words cut]
      exact List.mem_cons_self
    rw [name, told] at custom
    exact absurd custom (foreign noneKept)
  · have keptLetters : List.intercalate ['_'] kept ≠ [] := intercalate_ne_nil madeKept noneKept
    rw [orCustom, if_neg (by simpa using keptLetters), orCustom,
      if_neg (by simpa using someLetters)] at same
    rw [← runs_joined_parts madeKept cut, same, runs_joined_parts made cut]

theorem Short.slugLetters_python (short : Short description) :
    slugLetters (spelledByPython casing) (keptByPython description) =
      List.intercalate ['_'] ((keptByPython description).flatMap spelled) := by
  have letters : ((keptByPython description).flatMap fun word =>
      runs isSlugChar (spelledByPython casing word)) =
      (keptByPython description).flatMap spelled :=
    List.flatMap_congr fun word member => runs_spelledByPython_ascii (short.kept_ascii word member)
  rw [slugLetters, letters, List.take_of_length_le short.fits]

theorem Short.slugLetters_bridge (short : Short description) :
    slugLetters (spelledByBridge casing) (keptByBridge description) =
      List.intercalate ['_'] (((keptByPython description).filter long).flatMap spelled) := by
  have letters : (((keptByPython description).filter long).flatMap fun word =>
      runs isSlugChar (spelledByBridge casing word)) =
      ((keptByPython description).filter long).flatMap spelled := by
    apply List.flatMap_congr
    intro word member
    rw [spelledByBridge_ascii (short.kept_ascii word (List.mem_of_mem_filter member)), spelled]
  have fewer : (((keptByPython description).filter long).flatMap spelled).Sublist
      ((keptByPython description).flatMap spelled) := List.filter_sublist.flatMap spelled
  rw [slugLetters, short.keptByBridge_eq, letters]
  exact List.take_of_length_le ((intercalate_sublist fewer).length_le.trans short.fits)

/-- The words that the bridge leaves are too short for the name that it falls back to. -/
theorem custom_not_mem {kept : List (List Char)} (none_ : (kept.filter long).flatMap spelled = []) :
    "custom".toList ∉ kept.flatMap spelled := by
  intro member
  obtain ⟨word, there, inside⟩ := List.mem_flatMap.mp member
  have shorter := length_run_le _ inside
  have six : "custom".toList.length = 6 := by decide
  rw [List.length_map] at shorter
  have taken : word ∈ kept.filter long := List.mem_filter.mpr ⟨there, decide_eq_true (by omega)⟩
  rw [List.flatMap_eq_nil_iff.mp none_ word taken] at inside
  exact absurd inside List.not_mem_nil

/-- Such a description has the same slug exactly when no word that stripping shortens to one or two
characters has a letter or digit. -/
theorem Short.spelledAlike_iff (short : Short description) :
    SpelledAlike casing description ↔ ∀ word ∈ splitWhitespace description.toList,
      Shortened word → ∀ c ∈ strip word, c.isAlphanum = false := by
  have made : ∀ part ∈ (keptByPython description).flatMap spelled, Part isSlugChar part := by
    intro part member
    obtain ⟨word, _, inside⟩ := List.mem_flatMap.mp member
    exact runs_part isSlugChar _ part inside
  rw [SpelledAlike, short.slugLetters_python, short.slugLetters_bridge,
    orCustom_join_iff (List.filter_sublist.flatMap spelled) made custom_not_mem,
    flatMap_filter_eq_iff]
  constructor
  · rintro silent word member ⟨taken, shortened⟩
    have there : strip word ∈ keptByPython description := by
      rw [short.keptByPython_eq]
      exact List.mem_map_of_mem (List.mem_filter.mpr ⟨member, decide_eq_true taken⟩)
    exact (spelled_eq_nil_iff (short.kept_ascii _ there)).mp
      (silent _ there (decide_eq_false shortened.not_gt))
  · intro silent word there brief
    rw [spelled_eq_nil_iff (short.kept_ascii word there)]
    rw [short.keptByPython_eq] at there
    obtain ⟨whole, member, rfl⟩ := List.mem_map.mp there
    obtain ⟨inside, taken⟩ := List.mem_filter.mp member
    exact silent whole inside ⟨of_decide_eq_true taken, not_lt.mp (of_decide_eq_false brief)⟩

/-- The bridge gives what Python gave for every description whose words are taken and spelled alike;
for a short one in ASCII it does exactly when no word that stripping shortens to one or two
characters has a letter or digit. -/
theorem port_agrees_by_words (casing : Casing) (description : String) :
    (TakenAlike casing description → PortAgrees casing description) ∧
      (Short description → (PortAgrees casing description ↔
        ∀ word ∈ splitWhitespace description.toList, Shortened word →
          ∀ c ∈ strip word, c.isAlphanum = false)) := by
  simp only [portAgrees_spelled]
  exact ⟨TakenAlike.spelledAlike, Short.spelledAlike_iff⟩

end Short

section Sample

def plainCasing : Casing where
  table := plainTable
  upper c := [c.toUpper]
  titlecase c := [c.toUpper]
  upper_ascii _ _ := rfl
  titlecase_ascii _ _ := rfl
  cased_ascii _ _ := rfl

theorem plain_accent : Plain plainCasing '\u00E9' := by
  have alone : lowerAlone plainCasing '\u00E9' = ['\u00E9'] := rfl
  have silent : Silent (['\u00E9'].flatMap (lowerAlone plainCasing)) := by
    rw [List.flatMap_singleton, alone]
    exact ⟨List.cons_ne_nil _ _, List.forall_mem_singleton.mpr (skip_foreign (by decide))⟩
  refine .inr fun form member => ?_
  have same : form = ['\u00E9'] := by
    have upper : plainCasing.upper '\u00E9' = ['\u00E9'] := rfl
    have titlecase : plainCasing.titlecase '\u00E9' = ['\u00E9'] := rfl
    simpa [upper, titlecase, alone] using member
  rw [same]
  exact silent

/-- A description with an accent, and one whose last word is but punctuation. -/
theorem port_agrees_by_words_samples :
    PortAgrees plainCasing "Screen r\u00E9sum\u00E9s, weekly" ∧
      PortAgrees plainCasing "Draft report (!)" := by
  constructor
  · refine (port_agrees_by_words plainCasing _).1 ⟨by decide +kernel, fun word member _ => ?_⟩
    have each : ((lookedAt 5 (splitWhitespace "Screen r\u00E9sum\u00E9s, weekly".toList)).all
        fun word => (strip word).all fun c => isAscii c || c == '\u00E9') = true := by
      decide +kernel
    refine wordAlike_plain fun c inside => ?_
    have own := List.all_eq_true.mp (List.all_eq_true.mp each word member) c inside
    rcases Bool.or_eq_true_iff.mp own with ascii | accent
    · exact .inl ascii
    · rw [eq_of_beq accent]
      exact plain_accent
  · have ascii : ((splitWhitespace "Draft report (!)".toList).all fun word =>
        word.all isAscii) = true := by
      decide +kernel
    have silent : ((splitWhitespace "Draft report (!)".toList).all fun word =>
        !decide ((strip word).length ≤ 2) || (strip word).all fun c => !c.isAlphanum) = true := by
      decide +kernel
    simp only [List.all_eq_true] at ascii
    refine ((port_agrees_by_words plainCasing _).2
      ⟨ascii, by decide +kernel, by decide +kernel⟩).mpr fun word member shortened c inside => ?_
    have own := List.all_eq_true.mp silent word member
    rw [decide_eq_true shortened.2, Bool.not_true, Bool.false_or] at own
    simpa using List.all_eq_true.mp own c inside

/-- Python keeps the word of two letters before the comma. -/
theorem port_differs : ¬ ∀ description : String, PortAgrees plainCasing description := by
  intro law
  have slugs := (law "Use AI, now").1
  have bridge : (analyzeSkillDescription plainCasing.table plainCasing.upper "Use AI, now"
      none).slug = "use_now" := by
    decide +kernel
  have python : Skills.slugify plainCasing.table
      (titleFromDescription plainCasing "Use AI, now") = "use_ai_now" := by
    rw [Skills.slugify_eq]
    decide +kernel
  rw [bridge, python] at slugs
  exact absurd slugs (by decide)

end Sample

end BusinessOs.App.SkillAnalysis
